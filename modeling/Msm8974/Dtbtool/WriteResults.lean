import Mathlib.Algebra.Order.Ring.Int
import Msm8974.Dtbtool.Layout

/-!
The calls that main() makes on the output file. No result of write() is looked at alone: each goes
into the size_t sum `wrote`, -1 too, and the sum is compared with the size of the layout at the
end. fopen may fail for any DTB, and a file may have another size than before.
-/

namespace Msm8974.Dtbtool
open Combiner Msm8974.Packing

/-- A call of write() and its result. All calls of main() have bytes to write. -/
structure WriteCall where
  data : List UInt8
  result : Int
  nonempty : data ≠ []
  atLeast : -1 ≤ result
  atMost : result ≤ data.length

/-- What the system answers. -/
structure System where
  /-- The result of open(). -/
  out_fd : Int
  /-- The result of write() on the opened file, by the number of the call and the bytes. -/
  write : Nat → List UInt8 → Int
  write_atLeast : ∀ call data, -1 ≤ write call data
  write_atMost : ∀ call data, write call data ≤ data.length
  /-- What fopen and fread give for a DTB; none where fopen fails. -/
  fopen : Name → Option (List UInt8)
  /-- The output file as open() finds it; it is not truncated. -/
  previous : List UInt8

def System.writeCall (sys : System) (call : Nat) (data : List UInt8) (nonempty : data ≠ []) :
    WriteCall :=
  if sys.out_fd < 0 then ⟨data, -1, nonempty, le_rfl, by omega⟩
  else ⟨data, sys.write call data, nonempty, sys.write_atLeast _ _, sys.write_atMost _ _⟩

/-- The variables of main() while it writes, with a size_t of `w` bits. -/
structure Progress (w : Nat) where
  calls : List WriteCall
  wrote : BitVec w
  counted : wrote = BitVec.ofInt w (calls.map WriteCall.result).sum
  expected : Nat
  master_offset : Nat → Nat
  wroteDtb : Nat → Bool

namespace Progress
variable {w : Nat}

def new (w expected : Nat) : Progress w where
  calls := []
  wrote := 0
  counted := by simp
  expected
  master_offset _ := 0
  wroteDtb _ := false

/-- wrote += write(out_fd, data). -/
def write (sys : System) (p : Progress w) (data : List UInt8) (nonempty : data ≠ []) :
    Progress w :=
  let call := sys.writeCall p.calls.length data nonempty
  { p with
    calls := p.calls ++ [call]
    wrote := p.wrote + BitVec.ofInt w call.result
    counted := by
      rw [p.counted, List.map_append, List.sum_append, BitVec.ofInt_add]
      simp }

def writeU32 (sys : System) (p : Progress w) (n : Nat) : Progress w :=
  p.write sys (u32 n) (List.cons_ne_nil _ _)

def writeFiller (sys : System) (p : Progress w) (padding : Nat) : Progress w :=
  if positive : 0 < padding then
    p.write sys (filler padding) (by simpa [filler] using positive.ne')
  else p

def header (sys : System) (ps : PageSize) (s : Combiner) : Progress w :=
  let p := (new w (s.dtb_offset ps)).write sys [0x51, 0x43, 0x44, 0x54] (List.cons_ne_nil _ _)
  (p.writeU32 sys 2).writeU32 sys s.dtb_count

/-- A master's offset is the size so far, which its DTB is added to. -/
def assign (p : Progress w) (master dtb_size : Nat) : Progress w :=
  { p with
    master_offset := Function.update p.master_offset master (p.expected % 2 ^ 32)
    expected := p.expected + dtb_size }

def writeEntry (sys : System) (s : Combiner) (p : Progress w) (chip : ChipInfo) : Progress w :=
  let p := (((p.writeU32 sys chip.chipset.toNat).writeU32 sys chip.platform.toNat).writeU32 sys
    chip.subtype.toNat).writeU32 sys chip.revNum.toNat
  let dtb_size := s.dtb_size chip.master
  if p.master_offset chip.master ≠ 0 then
    (p.writeU32 sys (p.master_offset chip.master)).writeU32 sys dtb_size
  else
    ((p.writeU32 sys p.expected).assign chip.master dtb_size).writeU32 sys dtb_size

def writeTable (sys : System) (ps : PageSize) (s : Combiner) : Progress w :=
  ((s.chip_list.foldl (writeEntry sys s) (header sys ps s)).writeU32 sys 0).writeFiller sys
    (ps.padding s.tableSize)

def copyFile (sys : System) : Nat → List UInt8 → Progress w × Nat → Progress w × Nat
  | 0, _, copied => copied
  | blocks + 1, file, (p, totBytesRead) =>
      match file.take 1024 with
      | [] => (p, totBytesRead)
      | b :: bs =>
          copyFile sys blocks (file.drop 1024)
            (p.write sys (b :: bs) (List.cons_ne_nil _ _), totBytesRead + (b :: bs).length)

/-- wroteDtb = 1. -/
def mark (p : Progress w) (master : Nat) : Progress w :=
  { p with wroteDtb := Function.update p.wroteDtb master true }

/-- The second loop; `error` where it leaves by a break. -/
def writeDtb (sys : System) (ps : PageSize) (s : Combiner) (p : Progress w) (chip : ChipInfo) :
    Except (Progress w) (Progress w) :=
  if p.wroteDtb chip.master then .ok p
  else
    let p := p.mark chip.master
    match (s.dtb_file chip.master).bind sys.fopen with
    | none => .error p
    | some file =>
        let (p, totBytesRead) := copyFile sys file.length file (p, 0)
        let padding := ps.padding totBytesRead
        if (totBytesRead + padding) % 2 ^ 32 ≠ s.dtb_size chip.master then .error p
        else .ok (p.writeFiller sys padding)

end Progress

/-- What main() leaves. -/
structure Finished where
  rc : Int
  calls : List WriteCall
  unlinked : Bool
  /-- The bytes of the output file, none once it is unlinked. -/
  output : Option (List UInt8)

/-- The file after the calls, each of which has put the first `result` bytes behind the others. -/
def System.left (sys : System) (calls : List WriteCall) : List UInt8 :=
  let bytes := calls.flatMap fun call => call.data.take call.result.toNat
  bytes ++ sys.previous.drop bytes.length

/-- The check of the size, from the result of the second loop on. -/
def Progress.close {w : Nat} (sys : System) (p : Progress w) (rc : Int) : Finished :=
  let rc := if BitVec.ofNat w p.expected ≠ p.wrote then -1 else rc
  if rc ≠ 0 then ⟨rc, p.calls, true, none⟩
  else ⟨rc, p.calls, false, some (sys.left p.calls)⟩

/-- main() from the header on. -/
def Combiner.writeImage (w : Nat) (sys : System) (ps : PageSize) (s : Combiner) : Finished :=
  let table : Progress w := Progress.writeTable sys ps s
  match s.chip_list.foldlM (Progress.writeDtb sys ps s) table with
  | .error p => p.close sys (-1)
  | .ok p => p.close sys 0

/-- The C operator. -/
def logicalNot (n : Int) : Int := if n = 0 then 1 else 0

def main (w : Nat) (dir : InputDir) (ps : PageSize) (names : List Name) (sys : System) : Finished :=
  let s := collect dir ps names
  if s.dtb_count = 0 then ⟨s.rc, [], false, some sys.previous⟩
  -- !out_fd < 0 compares !out_fd, which is 0 or 1
  else if logicalNot sys.out_fd < 0 then ⟨-1, [], false, some sys.previous⟩
  else s.writeImage w sys ps

theorem logicalNot_nonneg (n : Int) : 0 ≤ logicalNot n := by
  rw [logicalNot]
  split <;> omega

@[simp] theorem System.writeCall_data (sys : System) (call : Nat) (data : List UInt8)
    (nonempty : data ≠ []) : (sys.writeCall call data nonempty).data = data := by
  rw [writeCall]
  split <;> rfl

section Sum

/-- A call lacks at most one byte more than it has. -/
theorem lacking (calls : List WriteCall) :
    (calls.map WriteCall.result).sum ≤ (calls.flatMap WriteCall.data).length ∧
      -((calls.flatMap WriteCall.data).length : Int) ≤ (calls.map WriteCall.result).sum := by
  induction calls with
  | nil => simp
  | cons call calls ih =>
      have positive := List.length_pos_iff.mpr call.nonempty
      have atLeast := call.atLeast
      have atMost := call.atMost
      rw [List.flatMap_cons, List.length_append, List.map_cons, List.sum_cons]
      omega

theorem sum_eq_iff (calls : List WriteCall) :
    (calls.map WriteCall.result).sum = (calls.flatMap WriteCall.data).length ↔
      ∀ call ∈ calls, call.result = call.data.length := by
  induction calls with
  | nil => simp
  | cons call calls ih =>
      have atMost := call.atMost
      have rest := (lacking calls).1
      rw [List.forall_mem_cons, ← ih, List.flatMap_cons, List.length_append, List.map_cons,
        List.sum_cons]
      omega

/-- The sum cannot wrap back to the expected size: less than 2^32 bytes can be lacking. -/
theorem Progress.wrote_eq_expected_iff {w : Nat} (wide : 32 ≤ w) (p : Progress w)
    (all : (p.calls.flatMap WriteCall.data).length = p.expected) (small : p.expected < 2 ^ 31) :
    BitVec.ofNat w p.expected = p.wrote ↔ ∀ call ∈ p.calls, call.result = call.data.length := by
  have most : 2 ^ 31 ≤ 2 ^ (w - 1) := Nat.pow_le_pow_right (by decide) (by omega)
  have most : (2 : Int) ^ 31 ≤ 2 ^ (w - 1) := by exact_mod_cast most
  have range := lacking p.calls
  rw [← sum_eq_iff, p.counted, all, ← BitVec.ofInt_natCast]
  rw [all] at range
  have exact : ∀ n : Int, -(p.expected : Int) ≤ n → n ≤ p.expected →
      (BitVec.ofInt w n).toInt = n := by
    intro n atLeast atMost
    exact BitVec.toInt_ofInt_eq_self (by omega) (by omega) (by omega)
  constructor
  · intro same
    have same := congrArg BitVec.toInt same
    rw [exact _ (by omega) (by omega), exact _ range.2 range.1] at same
    exact same.symm
  · intro same
    rw [same]

end Sum

namespace Progress
variable {w : Nat} {sys : System} {ps : PageSize} {s : Combiner} {p : Progress w}

/-- The output file if all writes were full. -/
def toOutput (p : Progress w) : Output where
  bytes := p.calls.flatMap WriteCall.data
  expected := p.expected
  master_offset := p.master_offset
  wroteDtb := p.wroteDtb

@[simp] theorem toOutput_write (data : List UInt8) (nonempty : data ≠ []) :
    (p.write sys data nonempty).toOutput =
      { p.toOutput with bytes := p.toOutput.bytes ++ data } := by
  simp [write, toOutput]

@[simp] theorem toOutput_writeU32 (n : Nat) :
    (p.writeU32 sys n).toOutput = { p.toOutput with bytes := p.toOutput.bytes ++ u32 n } :=
  toOutput_write _ _

@[simp] theorem toOutput_writeFiller (padding : Nat) :
    (p.writeFiller sys padding).toOutput =
      { p.toOutput with bytes := p.toOutput.bytes ++ filler padding } := by
  rw [writeFiller]
  split
  next => exact toOutput_write _ _
  next none =>
    have zero : padding = 0 := by omega
    simp [zero, filler]

@[simp] theorem writeU32_expected (n : Nat) : (p.writeU32 sys n).expected = p.expected := rfl

@[simp] theorem writeU32_master_offset (n : Nat) :
    (p.writeU32 sys n).master_offset = p.master_offset := rfl

@[simp] theorem toOutput_assign (master dtb_size : Nat) : (p.assign master dtb_size).toOutput =
    { p.toOutput with
      master_offset := Function.update p.master_offset master (p.expected % 2 ^ 32)
      expected := p.expected + dtb_size } := rfl

theorem toOutput_writeEntry (chip : ChipInfo) :
    (writeEntry sys s p chip).toOutput = s.writeEntry p.toOutput chip := by
  have same : p.toOutput.master_offset = p.master_offset ∧ p.toOutput.expected = p.expected :=
    ⟨rfl, rfl⟩
  by_cases unset : p.master_offset chip.master = 0
  · simp [writeEntry, Combiner.writeEntry, same, unset]
  · simp [writeEntry, Combiner.writeEntry, same, unset]

theorem toOutput_writeTable : (writeTable sys ps s : Progress w).toOutput = s.writeTable ps := by
  have start : (header sys ps s : Progress w).toOutput = s.header ps := by
    have empty : (new w (s.dtb_offset ps)).toOutput =
        ⟨[], s.dtb_offset ps, fun _ => 0, fun _ => false⟩ := rfl
    simp [header, Combiner.header, empty]
  have rows : ∀ chips : List ChipInfo,
      (chips.foldl (writeEntry sys s) (header sys ps s : Progress w)).toOutput =
        chips.foldl s.writeEntry (s.header ps) := by
    intro chips
    rw [← start]
    exact (List.foldl_hom toOutput fun q chip => (toOutput_writeEntry chip).symm).symm
  simp [writeTable, Combiner.writeTable, rows]

theorem toOutput_copyFile (blocks : Nat) (file : List UInt8) (totBytesRead : Nat) :
    ((copyFile sys blocks file (p, totBytesRead)).1.toOutput =
      { p.toOutput with
        bytes := (Dtbtool.copyFile blocks file (p.toOutput.bytes, totBytesRead)).1 }) ∧
    (copyFile sys blocks file (p, totBytesRead)).2 =
      (Dtbtool.copyFile blocks file (p.toOutput.bytes, totBytesRead)).2 := by
  induction blocks generalizing file p totBytesRead with
  | zero => exact ⟨rfl, rfl⟩
  | succ blocks ih =>
      rw [copyFile, Dtbtool.copyFile]
      cases file.take 1024 with
      | nil => exact ⟨rfl, rfl⟩
      | cons b bs =>
          have rest := @ih (p.write sys (b :: bs) (List.cons_ne_nil _ _)) (file.drop 1024)
            (totBytesRead + (b :: bs).length)
          rw [toOutput_write] at rest
          exact rest

theorem copyFile_all (p : Progress w) (file : List UInt8) :
    ∃ q, copyFile sys file.length file (p, 0) = (q, file.length) ∧
      q.toOutput = { p.toOutput with bytes := p.toOutput.bytes ++ file } := by
  have copied := @toOutput_copyFile w sys p file.length file 0
  rw [copyFile_eq (Nat.le_refl _), Nat.zero_add] at copied
  exact ⟨_, Prod.ext rfl copied.2, copied.1⟩

/-- The master's DTB is there when it is copied, with the size that it had. -/
def Rereads (sys : System) (ps : PageSize) (s : Combiner) (master : Nat) : Prop :=
  ∃ name file, s.dtb_file master = some name ∧ sys.fopen name = some file ∧
    (file.length + ps.padding file.length) % 2 ^ 32 = s.dtb_size master

/-- The directory with the files as they are copied. -/
def reread (sys : System) (dir : InputDir) : InputDir :=
  { dir with contents := fun name => (sys.fopen name).getD [] }

/-- The second loop for a master whose turn it is. -/
theorem writeDtb_of_rereads (dir : InputDir) {chip : ChipInfo}
    (unwritten : p.wroteDtb chip.master = false) (rereads : Rereads sys ps s chip.master) :
    ∃ p', writeDtb sys ps s p chip = .ok p' ∧
      s.writeDtb (reread sys dir) ps p.toOutput chip = some p'.toOutput ∧
      p'.toOutput.wroteDtb = Function.update p.wroteDtb chip.master true := by
  obtain ⟨name, file, dtb_file, opened, size⟩ := rereads
  obtain ⟨q, copied, output⟩ := @copyFile_all w sys (p.mark chip.master) file
  refine ⟨q.writeFiller sys (ps.padding file.length), ?_, ?_, ?_⟩
  · simp only [writeDtb, unwritten, dtb_file, Option.bind_some, opened, copied, size, ne_eq,
      not_true_eq_false, if_false, Bool.false_eq_true]
  · have turn : p.toOutput.wroteDtb chip.master = false := unwritten
    simp only [Combiner.writeDtb, turn, dtb_file, reread, opened, Option.getD_some,
      copyFile_eq (Nat.le_refl _), Nat.zero_add, size, ne_eq, not_true_eq_false, if_false,
      Bool.false_eq_true, toOutput_writeFiller, output]
    rfl
  · rw [toOutput_writeFiller, output]
    rfl

theorem writeDtb_of_not_rereads {chip : ChipInfo} (unwritten : p.wroteDtb chip.master = false)
    (fails : ¬ Rereads sys ps s chip.master) : ∃ p', writeDtb sys ps s p chip = .error p' := by
  rw [writeDtb, if_neg (by simp [unwritten])]
  cases dtb_file : s.dtb_file chip.master with
  | none => exact ⟨p.mark chip.master, rfl⟩
  | some name =>
      rw [Option.bind_some]
      cases opened : sys.fopen name with
      | none => exact ⟨p.mark chip.master, rfl⟩
      | some file =>
          obtain ⟨q, copied, -⟩ := @copyFile_all w sys (p.mark chip.master) file
          have differs : (file.length + ps.padding file.length) % 2 ^ 32 ≠ s.dtb_size chip.master :=
            fun size => fails ⟨name, file, dtb_file, opened, size⟩
          refine ⟨q, ?_⟩
          simp only [copied]
          rw [if_pos differs]

/-- The second loop from a state in which some DTBs are written: with all others there it goes the
way of a run without failures. -/
theorem foldlM_writeDtb_of_rereads (dir : InputDir) {chips : List ChipInfo}
    (all : ∀ c ∈ chips, p.wroteDtb c.master = true ∨ Rereads sys ps s c.master) :
    ∃ p', chips.foldlM (writeDtb sys ps s) p = .ok p' ∧
      chips.foldlM (s.writeDtb (reread sys dir) ps) p.toOutput = some p'.toOutput := by
  induction chips generalizing p with
  | nil => exact ⟨p, rfl, rfl⟩
  | cons chip chips ih =>
      rw [List.foldlM_cons, List.foldlM_cons]
      have others := fun c mem => all c (List.mem_cons_of_mem chip mem)
      cases turn : p.wroteDtb chip.master with
      | true =>
          have skip : writeDtb sys ps s p chip = .ok p := if_pos turn
          have skip' : s.writeDtb (reread sys dir) ps p.toOutput chip = some p.toOutput :=
            if_pos turn
          rw [skip, skip']
          exact ih others
      | false =>
          have rereads := (all chip List.mem_cons_self).resolve_left (by simp [turn])
          obtain ⟨q, step, step', wroteDtb⟩ := writeDtb_of_rereads dir turn rereads
          rw [step, step']
          refine ih fun c mem => (others c mem).imp_left fun written => ?_
          change q.toOutput.wroteDtb c.master = true
          rw [wroteDtb, Function.update_apply, written, ite_self]

/-- The second loop breaks at a DTB that is not there, if not before. -/
theorem foldlM_writeDtb_of_not_rereads {chips : List ChipInfo} {c : ChipInfo} (mem : c ∈ chips)
    (unwritten : p.wroteDtb c.master = false) (fails : ¬ Rereads sys ps s c.master) :
    ∃ p', chips.foldlM (writeDtb sys ps s) p = .error p' := by
  induction chips generalizing p with
  | nil => cases mem
  | cons chip chips ih =>
      rw [List.foldlM_cons]
      by_cases same : chip.master = c.master
      · rw [← same] at unwritten fails
        obtain ⟨p', step⟩ := writeDtb_of_not_rereads unwritten fails
        exact ⟨p', by rw [step]; rfl⟩
      · have later : c ∈ chips := by
          apply (List.mem_cons.mp mem).resolve_left
          intro here
          exact same (congrArg ChipInfo.master here).symm
        cases turn : p.wroteDtb chip.master with
        | true =>
            have skip : writeDtb sys ps s p chip = .ok p := if_pos turn
            rw [skip]
            exact ih later unwritten
        | false =>
            by_cases rereads : Rereads sys ps s chip.master
            · obtain ⟨q, step, -, wroteDtb⟩ := writeDtb_of_rereads ⟨fun _ => true, fun _ => [],
                fun _ => []⟩ turn rereads
              rw [step]
              apply ih later
              change q.toOutput.wroteDtb c.master = false
              rw [wroteDtb, Function.update_of_ne (Ne.symm same), unwritten]
            · obtain ⟨p', step⟩ := writeDtb_of_not_rereads turn rereads
              exact ⟨p', by rw [step]; rfl⟩

theorem close_of_differs {rc : Int} (fails : rc = -1 ∨ BitVec.ofNat w p.expected ≠ p.wrote) :
    p.close sys rc = ⟨-1, p.calls, true, none⟩ := by
  have result : (if BitVec.ofNat w p.expected ≠ p.wrote then -1 else rc) = -1 := by
    rw [ite_eq_left_iff]
    exact fun same => fails.resolve_right same
  rw [close, result]
  rfl

theorem close_of_same (same : BitVec.ofNat w p.expected = p.wrote) :
    p.close sys 0 = ⟨0, p.calls, false, some (sys.left p.calls)⟩ := by
  rw [close, if_neg (not_not_intro same)]
  rfl

end Progress

namespace Combiner
variable {w : Nat} {sys : System} {ps : PageSize} {s : Combiner}

/-- Layout and DTBs stay below 2^31 bytes. -/
structure Bounded (sys : System) (ps : PageSize) (s : Combiner) : Prop where
  image : s.imageSize ps < 2 ^ 31
  files : ∀ c ∈ s.chip_list, ∀ name file, s.dtb_file c.master = some name →
    sys.fopen name = some file → file.length + ps.padding file.length < 2 ^ 31

theorem Bounded.complete (bounded : s.Bounded sys ps) (dir : InputDir)
    (count : s.dtb_count = s.chip_list.length)
    (all : ∀ c ∈ s.chip_list, Progress.Rereads sys ps s c.master) :
    s.Complete (Progress.reread sys dir) ps := by
  refine ⟨count, fun c mem => ?_, bounded.image⟩
  obtain ⟨name, file, dtb_file, opened, size⟩ := all c mem
  have small := bounded.files c mem name file dtb_file opened
  rw [Nat.mod_eq_of_lt (by omega)] at size
  refine ⟨name, dtb_file, ?_⟩
  simp only [Progress.reread, opened, Option.getD_some, size]

/-- Where the second loop comes to its end, the calls were to write the image. -/
theorem writeImage_of_rereads (dir : InputDir) (count : s.dtb_count = s.chip_list.length)
    (bounded : s.Bounded sys ps) (all : ∀ c ∈ s.chip_list, Progress.Rereads sys ps s c.master) :
    ∃ p : Progress w, s.writeImage w sys ps = p.close sys 0 ∧
      p.calls.flatMap WriteCall.data = s.image (Progress.reread sys dir) ps ∧
      p.expected = (s.image (Progress.reread sys dir) ps).length := by
  have complete := bounded.complete dir count all
  obtain ⟨p, run, run'⟩ := Progress.foldlM_writeDtb_of_rereads (w := w)
    (p := Progress.writeTable sys ps s) dir fun c mem => .inr (all c mem)
  refine ⟨p, by rw [writeImage, run], ?_⟩
  have image := complete.generate_eq.1
  rw [Progress.toOutput_writeTable] at run'
  rw [generate, run'] at image
  dsimp only at image
  split at image
  next => cases image
  next same =>
    have bytes := Option.some.inj image
    refine ⟨bytes, ?_⟩
    rw [← bytes]
    exact not_not.mp same

theorem writeTable_wroteDtb (master : Nat) : (s.writeTable ps).wroteDtb master = false := by
  have rows : ∀ (chips : List ChipInfo) (out : Output),
      (chips.foldl s.writeEntry out).wroteDtb = out.wroteDtb := by
    intro chips
    induction chips with
    | nil => exact fun _ => rfl
    | cons chip chips ih =>
        intro out
        have row : (s.writeEntry out chip).wroteDtb = out.wroteDtb := by
          rw [writeEntry]
          split <;> rfl
        rw [List.foldl_cons, ih, row]
  simp only [writeTable, rows, header]

theorem writeImage_of_not_rereads {c : ChipInfo} (mem : c ∈ s.chip_list)
    (fails : ¬ Progress.Rereads sys ps s c.master) :
    ∃ p : Progress w, s.writeImage w sys ps = p.close sys (-1) := by
  have unwritten : (Progress.writeTable sys ps s : Progress w).wroteDtb c.master = false := by
    change (Progress.writeTable sys ps s : Progress w).toOutput.wroteDtb c.master = false
    rw [Progress.toOutput_writeTable, writeTable_wroteDtb]
  obtain ⟨p, run⟩ := Progress.foldlM_writeDtb_of_not_rereads mem unwritten fails
  exact ⟨p, by rw [writeImage, run]⟩

theorem addChips_count (name : Name) (st_size : Nat) (chips : List ChipInfo)
    (count : s.dtb_count = s.chip_list.length) :
    (s.addChips ps name st_size chips).dtb_count =
      (s.addChips ps name st_size chips).chip_list.length := by
  cases chips with
  | nil => exact count
  | cons chip rest =>
      rw [addChips]
      split
      next => exact count
      next chip_list added =>
        have length := (chipAdd_perm added).length_eq
        exact (foldl_addChip_adds (by simp only [length, count, List.length_cons]) rest).count

theorem collect_count (dir : InputDir) (ps : PageSize) (names : List Name) :
    (collect dir ps names).dtb_count = (collect dir ps names).chip_list.length := by
  apply List.foldlRecOn (motive := fun s : Combiner => s.dtb_count = s.chip_list.length)
  · rfl
  intro s count name _
  rw [addFile]
  split
  · exact addChips_count _ _ _ count
  · exact count

end Combiner

theorem System.prefix_left (sys : System) {calls : List WriteCall}
    (full : ∀ call ∈ calls, call.result = call.data.length) :
    calls.flatMap WriteCall.data <+: sys.left calls := by
  have bytes : (calls.flatMap fun call => call.data.take call.result.toNat) =
      calls.flatMap WriteCall.data := by
    refine List.flatMap_congr fun call mem => ?_
    rw [full call mem, Int.toNat_natCast, List.take_length]
  rw [left, bytes]
  exact List.prefix_append _ _

/-- main() with at least one DTB: success means that no write was short and every DTB was there,
and the output begins with the whole layout; any failure unlinks the output. -/
theorem final_size_check_is_sound {w : Nat} (wide : 32 ≤ w) (dir : InputDir) (ps : PageSize)
    (names : List Name) (sys : System) (found : (collect dir ps names).dtb_count ≠ 0)
    (bounded : (collect dir ps names).Bounded sys ps) :
    let s := collect dir ps names
    let run := main w dir ps names sys
    (run.rc = 0 ↔ (∀ call ∈ run.calls, call.result = call.data.length) ∧
      ∀ c ∈ s.chip_list, Progress.Rereads sys ps s c.master) ∧
    (run.rc = 0 → run.unlinked = false ∧ ∃ image output, run.output = some output ∧
      run.calls.flatMap WriteCall.data = image ∧ image <+: output ∧
      s.Decodes (Progress.reread sys dir) ps image) ∧
    (run.rc ≠ 0 → run.rc = -1 ∧ run.unlinked = true ∧ run.output = none) := by
  intro s run
  have count : s.dtb_count = s.chip_list.length := collect_count dir ps names
  have opened : run = s.writeImage w sys ps := by
    have reached := logicalNot_nonneg sys.out_fd
    exact (if_neg found).trans (if_neg (by omega))
  by_cases all : ∀ c ∈ s.chip_list, Progress.Rereads sys ps s c.master
  · obtain ⟨p, close, bytes, length⟩ := writeImage_of_rereads (w := w) dir count bounded all
    have complete := bounded.complete dir count all
    have small := complete.length_image.trans_lt complete.small
    have exact := p.wrote_eq_expected_iff wide (by rw [bytes, length]) (length ▸ small)
    by_cases same : BitVec.ofNat w p.expected = p.wrote
    · have full := exact.mp same
      rw [opened, close, Progress.close_of_same same]
      refine ⟨⟨fun _ => ⟨full, all⟩, fun _ => rfl⟩, fun _ => ⟨rfl, _, _, rfl, bytes, ?_,
        complete.decodes⟩, fun fails => absurd rfl fails⟩
      exact bytes ▸ sys.prefix_left full
    · rw [opened, close, Progress.close_of_differs (.inr same)]
      refine ⟨⟨fun success => ?_, fun ⟨full, _⟩ => absurd (exact.mpr full) same⟩,
        fun success => ?_, fun _ => ⟨rfl, rfl, rfl⟩⟩
      all_goals cases success
  · obtain ⟨c, mem, fails⟩ : ∃ c ∈ s.chip_list, ¬ Progress.Rereads sys ps s c.master := by
      simpa using all
    obtain ⟨p, close⟩ := writeImage_of_not_rereads (w := w) mem fails
    rw [opened, close, Progress.close_of_differs (.inl rfl)]
    refine ⟨⟨fun success => ?_, fun ⟨_, there⟩ => absurd there all⟩, fun success => ?_,
      fun _ => ⟨rfl, rfl, rfl⟩⟩
    all_goals cases success

/-- A directory with one DTB of two bytes. -/
def oneFile : InputDir where
  isRegular _ := true
  getChipInfo _ := [⟨126, 8, 0, 2⟩]
  contents _ := [0xd0, 0x0d]

/-- The last call of write(), of the padding behind the DTB, comes a byte short. -/
def shortAtTheEnd : System where
  out_fd := 3
  write call data := if call = 12 then data.length - 1 else data.length
  write_atLeast _ _ := by split <;> omega
  write_atMost _ _ := by split <;> omega
  fopen _ := some [0xd0, 0x0d]
  previous := []

theorem last_byte_is_missed :
    let run := main 64 oneFile ⟨64, by decide, by decide⟩ [['a', '.', 'd', 't', 'b']] shortAtTheEnd
    run.rc = -1 ∧ run.unlinked = true ∧ run.output = none := by
  have sound := final_size_check_is_sound (w := 64) (by decide) oneFile
    ⟨64, by decide, by decide⟩ [['a', '.', 'd', 't', 'b']] shortAtTheEnd (by decide)
    ⟨by decide, fun _ _ _ file _ opened => by
      obtain rfl : [0xd0, 0x0d] = file := Option.some.inj opened
      decide⟩
  exact sound.2.2 (by decide)

end Msm8974.Dtbtool
