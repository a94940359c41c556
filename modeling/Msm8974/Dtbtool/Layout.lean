import Msm8974.Library.Packing
import Msm8974.Dtbtool.Combine

/-!
What a bootloader reads back from the image, by the format of dtbtool.txt. The first loop gives each
master the sum of the sizes before it, at its first entry; the second loop writes the DTBs in
the same order, so each offset leads to its own DTB.
-/

namespace Msm8974.Dtbtool
open Combiner Msm8974.Packing

def leNat : List UInt8 → Nat
  | [] => 0
  | b :: bs => b.toNat + 2 ^ 8 * leNat bs

/-- The uint32 at a position. -/
def u32At (image : List UInt8) (pos : Nat) : Nat := leNat ((image.drop pos).take 4)

/-- A device entry. -/
structure Row extends ChipTuple where
  offset : Nat
  size : Nat
  deriving DecidableEq, Repr

def rowAt (image : List UInt8) (i : Nat) : Row :=
  let pos := 12 + 24 * i
  { chipset := .ofNat 32 (u32At image pos)
    platform := .ofNat 32 (u32At image (pos + 4))
    subtype := .ofNat 32 (u32At image (pos + 8))
    revNum := .ofNat 32 (u32At image (pos + 12))
    offset := u32At image (pos + 16)
    size := u32At image (pos + 20) }

theorem PageSize.dvd_add_padding (ps : PageSize) (n : Nat) : ps.size ∣ n + ps.padding n := by
  have below := Nat.mod_lt n ps.pos
  have whole := Nat.div_add_mod n ps.size
  refine ⟨n / ps.size + 1, ?_⟩
  rw [padding, Nat.mul_succ]
  omega

theorem leNat_u32 (n : Nat) : leNat (u32 n) = n % 2 ^ 32 := by
  simp only [u32, leNat, UInt8.toNat_ofNat']
  omega

theorem length_u32 (n : Nat) : (u32 n).length = 4 := rfl

theorem u32At_of_drop {image before after : List UInt8} {pos n : Nat}
    (h : image.drop pos = before ++ u32 n ++ after) :
    u32At image (pos + before.length) = n % 2 ^ 32 := by
  rw [u32At, ← List.drop_drop, h, List.append_assoc, List.drop_left]
  exact leNat_u32 n

namespace Combiner
variable {dir : InputDir} {ps : PageSize} {s : Combiner}

/-- The masters of a list of entries. -/
def masters (chips : List ChipInfo) : List Nat := chips.map ChipInfo.master

/-- The masters in the order in which their DTBs are written. -/
def order (s : Combiner) : List Nat := firsts [] (masters s.chip_list)

def offset (ps : PageSize) (s : Combiner) (master : Nat) : Nat :=
  offsetOf s.dtb_size (s.dtb_offset ps) s.order master

/-- The master's fields belong to a file that was not changed since. -/
def HasDtb (dir : InputDir) (ps : PageSize) (s : Combiner) (master : Nat) : Prop :=
  ∃ file, s.dtb_file master = some file ∧
    s.dtb_size master = (dir.contents file).length + ps.padding (dir.contents file).length

/-- The size of the whole image. -/
def imageSize (ps : PageSize) (s : Combiner) : Nat :=
  s.dtb_offset ps + ((masters s.chip_list).dedup.map s.dtb_size).sum

/-- What a reader of the image finds. -/
structure Decodes (dir : InputDir) (ps : PageSize) (s : Combiner) (image : List UInt8) : Prop where
  magic : image.take 4 = [0x51, 0x43, 0x44, 0x54]
  version : u32At image 4 = 2
  count : u32At image 8 = s.chip_list.length
  tuples : ∀ i (h : i < s.chip_list.length),
    (rowAt image i).toChipTuple = s.chip_list[i].toChipTuple
  terminated : u32At image (12 + 24 * s.chip_list.length) = 0
  aligned : ∀ i < s.chip_list.length, ps.size ∣ (rowAt image i).offset
  outside : ∀ i < s.chip_list.length, 12 + 24 * s.chip_list.length + 4 ≤ (rowAt image i).offset
  inside : ∀ i < s.chip_list.length, (rowAt image i).offset + (rowAt image i).size ≤ image.length
  /-- The bytes of the master's file and zeros up to the page. -/
  blob : ∀ i (h : i < s.chip_list.length), ∃ file, s.dtb_file s.chip_list[i].master = some file ∧
    (image.drop (rowAt image i).offset).take (rowAt image i).size =
      dir.contents file ++ filler (ps.padding (dir.contents file).length)
  disjoint : ∀ i (h : i < s.chip_list.length) j (h' : j < s.chip_list.length),
    s.chip_list[i].master ≠ s.chip_list[j].master →
      (rowAt image i).offset + (rowAt image i).size ≤ (rowAt image j).offset ∨
        (rowAt image j).offset + (rowAt image j).size ≤ (rowAt image i).offset
  shared : ∀ i (h : i < s.chip_list.length) j (h' : j < s.chip_list.length),
    s.chip_list[i].master = s.chip_list[j].master →
      (rowAt image i).offset = (rowAt image j).offset ∧ (rowAt image i).size = (rowAt image j).size
  expected : image.length = (s.writeTable ps).expected
  size : image.length = s.imageSize ps

/-- The row that the first loop writes, if `offset` is where it puts the masters. -/
def row (s : Combiner) (offset : Nat → Nat) (chip : ChipInfo) : List UInt8 :=
  u32 chip.chipset.toNat ++ u32 chip.platform.toNat ++ u32 chip.subtype.toNat ++
    u32 chip.revNum.toNat ++ u32 (offset chip.master) ++ u32 (s.dtb_size chip.master)

theorem length_row (offset : Nat → Nat) (chip : ChipInfo) : (s.row offset chip).length = 24 := rfl

/-- The entry of a chip whose master has a device tree already. -/
theorem writeEntry_known {offset : Nat → Nat} {out : Output} {chip : ChipInfo}
    (here : out.master_offset chip.master = offset chip.master)
    (set : offset chip.master ≠ 0) :
    s.writeEntry out chip = { out with bytes := out.bytes ++ s.row offset chip } := by
  simp [writeEntry, row, here, set]

/-- The entry of a chip whose device tree comes next. -/
theorem writeEntry_new {offset : Nat → Nat} {out : Output} {chip : ChipInfo}
    (unset : out.master_offset chip.master = 0) (here : offset chip.master = out.expected)
    (small : out.expected < 2 ^ 32) :
    s.writeEntry out chip =
      { out with
        bytes := out.bytes ++ s.row offset chip
        master_offset := Function.update out.master_offset chip.master out.expected
        expected := out.expected + s.dtb_size chip.master } := by
  simp only [writeEntry, unset, here, Nat.mod_eq_of_lt small, row, ne_eq, not_true_eq_false,
    if_false, List.append_assoc]

/-- The first loop from a state in which the masters in `seen` have their offsets. -/
theorem foldl_writeEntry {offset : Nat → Nat} {chips : List ChipInfo} {out : Output}
    {seen : List Nat} (assigned : ∀ k, out.master_offset k = if k ∈ seen then offset k else 0)
    (nonzero : ∀ k ∈ seen, offset k ≠ 0) (start : 0 < out.expected)
    (rest : ∀ k ∈ firsts seen (masters chips),
      offset k = offsetOf s.dtb_size out.expected (firsts seen (masters chips)) k)
    (small : out.expected + ((firsts seen (masters chips)).map s.dtb_size).sum < 2 ^ 31) :
    (chips.foldl s.writeEntry out).bytes = out.bytes ++ chips.flatMap (s.row offset) ∧
      (chips.foldl s.writeEntry out).expected =
        out.expected + ((firsts seen (masters chips)).map s.dtb_size).sum ∧
      (chips.foldl s.writeEntry out).wroteDtb = out.wroteDtb := by
  induction chips generalizing out seen with
  | nil => simp [masters, firsts]
  | cons chip chips ih =>
      rw [List.foldl_cons]
      by_cases known : chip.master ∈ seen
      · have same : firsts seen (masters (chip :: chips)) = firsts seen (masters chips) :=
          if_pos known
        have here : out.master_offset chip.master = offset chip.master := by
          rw [assigned, if_pos known]
        have written := s.writeEntry_known here (nonzero _ known)
        rw [same] at rest small ⊢
        obtain ⟨bytes, expected, wrote⟩ := @ih (s.writeEntry out chip) seen
          (written ▸ assigned) nonzero (written ▸ start) (written ▸ rest) (written ▸ small)
        refine ⟨?_, ?_, ?_⟩
        · simpa [written] using bytes
        · simpa [written] using expected
        · simpa [written] using wrote
      · have next : firsts seen (masters (chip :: chips)) =
            chip.master :: firsts (chip.master :: seen) (masters chips) := if_neg known
        rw [next] at rest small ⊢
        rw [List.map_cons, List.sum_cons] at small
        have here : offset chip.master = out.expected := by
          rw [rest _ List.mem_cons_self, offsetOf, if_pos rfl]
        have unset : out.master_offset chip.master = 0 := by rw [assigned, if_neg known]
        have written := s.writeEntry_new unset here (by omega)
        have assigned' : ∀ k, Function.update out.master_offset chip.master out.expected k =
            if k ∈ chip.master :: seen then offset k else 0 := by
          intro k
          by_cases same : k = chip.master
          · simp [same, here]
          · simp [same, assigned]
        have nonzero' : ∀ k ∈ chip.master :: seen, offset k ≠ 0 := by
          intro k mem
          rcases List.mem_cons.mp mem with rfl | old
          · rw [here]
            exact Nat.pos_iff_ne_zero.mp start
          · exact nonzero k old
        have rest' : ∀ k ∈ firsts (chip.master :: seen) (masters chips),
            offset k = offsetOf s.dtb_size (out.expected + s.dtb_size chip.master)
              (firsts (chip.master :: seen) (masters chips)) k := by
          intro k mem
          have differs : chip.master ≠ k := fun same =>
            (mem_firsts.mp mem).2 (same ▸ List.mem_cons_self)
          rw [rest k (List.mem_cons_of_mem _ mem), offsetOf, if_neg differs]
        obtain ⟨bytes, expected, wrote⟩ := @ih (s.writeEntry out chip) _
          (written ▸ assigned') nonzero' (written ▸ Nat.add_pos_left start _) (written ▸ rest')
          (by rw [written]; dsimp only; omega)
        refine ⟨?_, ?_, ?_⟩
        · simpa [written] using bytes
        · simpa [written, Nat.add_assoc] using expected
        · simpa [written] using wrote

end Combiner

/-- All blocks together are the file. -/
theorem copyFile_eq {blocks : Nat} {file bytes : List UInt8} {totBytesRead : Nat}
    (enough : file.length ≤ blocks) :
    copyFile blocks file (bytes, totBytesRead) = (bytes ++ file, totBytesRead + file.length) := by
  induction blocks generalizing file bytes totBytesRead with
  | zero =>
      obtain rfl := List.length_eq_zero_iff.mp (Nat.le_zero.mp enough)
      simp [copyFile]
  | succ blocks ih =>
      rw [copyFile]
      split
      next last =>
        have empty : file = [] := by simpa using last
        simp [empty]
      next buf _ =>
        have shorter : (file.drop 1024).length ≤ blocks := by
          rw [List.length_drop]
          omega
        rw [ih shorter]
        have all := List.take_append_drop 1024 file
        have length : (file.take 1024).length + (file.drop 1024).length = file.length := by
          rw [← List.length_append, all]
        rw [List.append_assoc, all, Nat.add_assoc, length]

namespace Combiner
variable {dir : InputDir} {ps : PageSize} {s : Combiner}

/-- What the second loop writes for a master. -/
def block (dir : InputDir) (ps : PageSize) (s : Combiner) (master : Nat) : List UInt8 :=
  match s.dtb_file master with
  | some file => dir.contents file ++ filler (ps.padding (dir.contents file).length)
  | none => []

theorem HasDtb.length_block {master : Nat} (h : s.HasDtb dir ps master) :
    (s.block dir ps master).length = s.dtb_size master := by
  obtain ⟨file, dtb_file, size⟩ := h
  simp [block, dtb_file, size, filler]

/-- The second loop from a state in which the DTBs of `seen` are written. -/
theorem foldlM_writeDtb {chips : List ChipInfo} {out : Output} {seen : List Nat}
    (written : ∀ k, out.wroteDtb k = decide (k ∈ seen))
    (dtbs : ∀ c ∈ chips, s.HasDtb dir ps c.master)
    (small : ∀ c ∈ chips, s.dtb_size c.master < 2 ^ 32) :
    ∃ out', chips.foldlM (s.writeDtb dir ps) out = some out' ∧ out'.expected = out.expected ∧
      out'.bytes = out.bytes ++ (firsts seen (masters chips)).flatMap (s.block dir ps) := by
  induction chips generalizing out seen with
  | nil => exact ⟨out, rfl, rfl, by simp [masters, firsts]⟩
  | cons chip chips ih =>
      have dtbs' := fun c mem => dtbs c (List.mem_cons_of_mem chip mem)
      have small' := fun c mem => small c (List.mem_cons_of_mem chip mem)
      rw [List.foldlM_cons]
      by_cases known : chip.master ∈ seen
      · have same : firsts seen (masters (chip :: chips)) = firsts seen (masters chips) :=
          if_pos known
        have skip : s.writeDtb dir ps out chip = some out := if_pos (by simp [written, known])
        rw [same, skip]
        exact ih written dtbs' small'
      · have next : firsts seen (masters (chip :: chips)) =
            chip.master :: firsts (chip.master :: seen) (masters chips) := if_neg known
        obtain ⟨file, dtb_file, size⟩ := dtbs chip List.mem_cons_self
        have fits := small chip List.mem_cons_self
        have here : s.writeDtb dir ps out chip = some { out with
            bytes := out.bytes ++ s.block dir ps chip.master
            wroteDtb := Function.update out.wroteDtb chip.master true } := by
          have unwritten : out.wroteDtb chip.master = false := by simp [written, known]
          have matches_size : ((dir.contents file).length +
              ps.padding (dir.contents file).length) % 2 ^ 32 = s.dtb_size chip.master := by
            rw [← size, Nat.mod_eq_of_lt fits]
          simp only [writeDtb, unwritten, dtb_file, copyFile_eq (Nat.le_refl _), Nat.zero_add,
            matches_size, block, ne_eq, not_true_eq_false, if_false, Bool.false_eq_true,
            List.append_assoc]
        have written' : ∀ k, Function.update out.wroteDtb chip.master true k =
            decide (k ∈ chip.master :: seen) := by
          intro k
          by_cases same : k = chip.master
          · simp [same]
          · simp [same, written]
        rw [here, next]
        obtain ⟨out', run, expected, bytes⟩ := @ih { out with
          bytes := out.bytes ++ s.block dir ps chip.master
          wroteDtb := Function.update out.wroteDtb chip.master true } _ written' dtbs' small'
        exact ⟨out', run, expected, by rw [bytes, List.flatMap_cons, List.append_assoc]⟩

/-- Header, table and end indicator with the padding behind it. -/
def head (ps : PageSize) (s : Combiner) : List UInt8 :=
  [0x51, 0x43, 0x44, 0x54] ++ u32 2 ++ u32 s.dtb_count ++
    s.chip_list.flatMap (s.row (s.offset ps)) ++ u32 0 ++ filler (ps.padding s.tableSize)

/-- The image as one expression. -/
def image (dir : InputDir) (ps : PageSize) (s : Combiner) : List UInt8 :=
  s.head ps ++ s.order.flatMap (s.block dir ps)

theorem length_rows (ps : PageSize) (s : Combiner) :
    (s.chip_list.flatMap (s.row (s.offset ps))).length = 24 * s.chip_list.length := by
  have rows : ∀ c ∈ s.chip_list, (s.row (s.offset ps) c).length = (fun _ => 24) c :=
    fun c _ => length_row _ c
  rw [length_flatMap_blocks rows]
  simp [Nat.mul_comm]

theorem length_head (count : s.dtb_count = s.chip_list.length) :
    (s.head ps).length = s.dtb_offset ps := by
  simp only [head, List.length_append, length_rows, length_u32, filler, List.length_replicate,
    dtb_offset, tableSize, count, List.length_cons, List.length_nil]

theorem sum_order (s : Combiner) :
    (s.order.map s.dtb_size).sum = ((masters s.chip_list).dedup.map s.dtb_size).sum :=
  ((firsts_perm_dedup _).map _).sum_eq

theorem mem_order {k : Nat} : k ∈ s.order ↔ ∃ c ∈ s.chip_list, c.master = k := by
  simp [order, mem_firsts, masters]

theorem offset_add_le {c : ChipInfo} (mem : c ∈ s.chip_list) :
    s.offset ps c.master + s.dtb_size c.master ≤ s.imageSize ps := by
  rw [imageSize, ← sum_order]
  exact offsetOf_add_le (mem_order.mpr ⟨c, mem, rfl⟩)

/-- The entries of a list whose DTBs fit. -/
structure Complete (dir : InputDir) (ps : PageSize) (s : Combiner) : Prop where
  count : s.dtb_count = s.chip_list.length
  dtbs : ∀ c ∈ s.chip_list, s.HasDtb dir ps c.master
  small : s.imageSize ps < 2 ^ 31

namespace Complete

theorem order_sizes (h : s.Complete dir ps) :
    ∀ k ∈ s.order, (s.block dir ps k).length = s.dtb_size k := by
  intro k mem
  obtain ⟨c, listed, rfl⟩ := mem_order.mp mem
  exact (h.dtbs c listed).length_block

theorem length_image (h : s.Complete dir ps) : (s.image dir ps).length = s.imageSize ps := by
  rw [image, List.length_append, length_head h.count, length_flatMap_blocks h.order_sizes,
    sum_order, imageSize]

theorem generate_eq (h : s.Complete dir ps) : s.generate dir ps = some (s.image dir ps) ∧
    (s.writeTable ps).expected = s.imageSize ps := by
  have small := h.small
  rw [imageSize, ← sum_order] at small
  have start : 0 < (s.header ps).expected := by
    simp only [header, dtb_offset, tableSize]
    omega
  obtain ⟨bytes, expected, wrote⟩ := @foldl_writeEntry s (s.offset ps) s.chip_list
    (s.header ps) [] (fun k => by simp [header])
    (by simp) start (fun _ _ => rfl) small
  have table : (s.writeTable ps).bytes = s.head ps := by
    simp only [writeTable, bytes]
    simp only [head, header, List.append_assoc]
  have unwritten : ∀ k, (s.writeTable ps).wroteDtb k = decide (k ∈ ([] : List Nat)) := by
    intro k
    simp only [writeTable, wrote]
    simp [header]
  have total : (s.writeTable ps).expected = s.imageSize ps := by
    rw [imageSize, ← sum_order]
    exact expected
  have sizes : ∀ c ∈ s.chip_list, s.dtb_size c.master < 2 ^ 32 := by
    intro c mem
    have bound : s.offset ps c.master + s.dtb_size c.master ≤ s.imageSize ps := offset_add_le mem
    have small := h.small
    omega
  obtain ⟨out, run, same, written⟩ := @foldlM_writeDtb dir ps s s.chip_list (s.writeTable ps) []
    unwritten h.dtbs sizes
  have image_bytes : out.bytes = s.image dir ps := by
    rw [written, table]
    rfl
  refine ⟨?_, total⟩
  rw [generate, run]
  simp [same, total, image_bytes, h.length_image]

theorem drop_image {i : Nat} (inside : i < s.chip_list.length) :
    ∃ after, (s.image dir ps).drop (12 + 24 * i) = s.row (s.offset ps) s.chip_list[i] ++ after := by
  have width : ∀ c ∈ s.chip_list, (s.row (s.offset ps) c).length = 24 := fun c _ => length_row _ c
  have rows := drop_flatMap_uniform width inside
  have bound : 24 * i ≤ (s.chip_list.flatMap (s.row (s.offset ps))).length := by
    rw [length_rows]
    omega
  have split : s.image dir ps = ([0x51, 0x43, 0x44, 0x54] ++ u32 2 ++ u32 s.dtb_count) ++
      (s.chip_list.flatMap (s.row (s.offset ps)) ++ (u32 0 ++ filler (ps.padding s.tableSize) ++
        s.order.flatMap (s.block dir ps))) := by
    simp only [image, head, List.append_assoc]
  refine ⟨(s.chip_list.drop (i + 1)).flatMap (s.row (s.offset ps)) ++ (u32 0 ++
    filler (ps.padding s.tableSize) ++ s.order.flatMap (s.block dir ps)), ?_⟩
  have header : ([0x51, 0x43, 0x44, 0x54] ++ u32 2 ++ u32 s.dtb_count).length = 12 := rfl
  rw [split, ← List.drop_drop, List.drop_left' header, List.drop_append_of_le_length bound, rows,
    List.append_assoc]

theorem rowAt_image (h : s.Complete dir ps) {i : Nat} (inside : i < s.chip_list.length) :
    rowAt (s.image dir ps) i = ⟨s.chip_list[i].toChipTuple, s.offset ps s.chip_list[i].master,
      s.dtb_size s.chip_list[i].master⟩ := by
  obtain ⟨after, here⟩ : ∃ after, (s.image dir ps).drop (12 + 24 * i) =
      s.row (s.offset ps) s.chip_list[i] ++ after := drop_image inside
  have bound : s.offset ps s.chip_list[i].master + s.dtb_size s.chip_list[i].master ≤
      s.imageSize ps := offset_add_le (List.getElem_mem inside)
  have small := h.small
  generalize s.chip_list[i] = chip at here bound
  have at_field : ∀ pos before n rest, before.length = pos →
      s.row (s.offset ps) chip = before ++ u32 n ++ rest →
        u32At (s.image dir ps) (12 + 24 * i + pos) = n % 2 ^ 32 := by
    intro pos before n rest length split
    subst length
    have place : (s.image dir ps).drop (12 + 24 * i) = before ++ u32 n ++ (rest ++ after) := by
      rw [here, split, List.append_assoc]
    exact u32At_of_drop place
  have chipset := at_field 0 [] chip.chipset.toNat _ rfl rfl
  have platform := at_field 4 (u32 chip.chipset.toNat) chip.platform.toNat _ rfl rfl
  have subtype := at_field 8 (u32 chip.chipset.toNat ++ u32 chip.platform.toNat)
    chip.subtype.toNat _ rfl rfl
  have revNum := at_field 12 (u32 chip.chipset.toNat ++ u32 chip.platform.toNat ++
    u32 chip.subtype.toNat) chip.revNum.toNat _ rfl rfl
  have offset_at := at_field 16 (u32 chip.chipset.toNat ++ u32 chip.platform.toNat ++
    u32 chip.subtype.toNat ++ u32 chip.revNum.toNat) (s.offset ps chip.master) _ rfl rfl
  have size_at := at_field 20 (u32 chip.chipset.toNat ++ u32 chip.platform.toNat ++
    u32 chip.subtype.toNat ++ u32 chip.revNum.toNat ++ u32 (s.offset ps chip.master))
    (s.dtb_size chip.master) [] rfl rfl
  have fits : s.offset ps chip.master % 2 ^ 32 = s.offset ps chip.master ∧
      s.dtb_size chip.master % 2 ^ 32 = s.dtb_size chip.master := by omega
  have word : ∀ x : BitVec 32, BitVec.ofNat 32 (x.toNat % 2 ^ 32) = x := by
    intro x
    rw [Nat.mod_eq_of_lt x.isLt, BitVec.ofNat_toNat, BitVec.setWidth_eq]
  rw [Nat.add_zero] at chipset
  simp only [rowAt, chipset, platform, subtype, revNum, offset_at, size_at, fits, word]

/-- The image of a complete list decodes to its entries and their files. -/
theorem decodes (h : s.Complete dir ps) : s.Decodes dir ps (s.image dir ps) := by
  have row_eq := fun i inside => h.rowAt_image (i := i) inside
  have header : ∀ before n after, s.image dir ps = before ++ u32 n ++ after →
      u32At (s.image dir ps) before.length = n % 2 ^ 32 := by
    intro before n after split
    have here : u32At (s.image dir ps) (0 + before.length) = n % 2 ^ 32 := u32At_of_drop split
    rwa [Nat.zero_add] at here
  constructor
  case magic => rfl
  case version => exact header [0x51, 0x43, 0x44, 0x54] 2 _ rfl
  case count =>
    have count := header ([0x51, 0x43, 0x44, 0x54] ++ u32 2) s.dtb_count _ rfl
    have small := h.small
    simp only [imageSize, dtb_offset, tableSize, h.count] at small
    rw [h.count, Nat.mod_eq_of_lt (by omega)] at count
    exact count
  case tuples => exact fun i inside => congrArg Row.toChipTuple (row_eq i inside)
  case terminated =>
    have last := header ([0x51, 0x43, 0x44, 0x54] ++ u32 2 ++ u32 s.dtb_count ++
      s.chip_list.flatMap (s.row (s.offset ps))) 0
      (filler (ps.padding s.tableSize) ++ s.order.flatMap (s.block dir ps))
      (by simp only [image, head, List.append_assoc])
    rw [List.length_append, length_rows] at last
    exact last
  case aligned =>
    intro i inside
    rw [row_eq i inside]
    refine dvd_offsetOf (ps.dvd_add_padding _) fun k mem => ?_
    obtain ⟨c, listed, rfl⟩ := mem_order.mp mem
    obtain ⟨file, -, size⟩ := h.dtbs c listed
    exact size ▸ ps.dvd_add_padding _
  case outside =>
    intro i inside
    rw [row_eq i inside]
    have base : s.dtb_offset ps ≤ s.offset ps s.chip_list[i].master := base_le_offsetOf
    simp only [dtb_offset, tableSize, h.count] at base ⊢
    omega
  case inside =>
    intro i inside
    rw [row_eq i inside, h.length_image]
    exact offset_add_le (List.getElem_mem inside)
  case blob =>
    intro i inside
    rw [row_eq i inside]
    have listed := List.getElem_mem inside
    have mem : s.chip_list[i].master ∈ s.order := mem_order.mpr ⟨_, listed, rfl⟩
    have found : ((s.image dir ps).drop (offsetOf s.dtb_size (s.head ps).length s.order
        s.chip_list[i].master)).take (s.dtb_size s.chip_list[i].master) =
        s.block dir ps s.chip_list[i].master := drop_offsetOf mem h.order_sizes
    rw [length_head h.count] at found
    obtain ⟨file, dtb_file, -⟩ := h.dtbs _ listed
    refine ⟨file, dtb_file, found.trans ?_⟩
    simp only [block, dtb_file]
  case disjoint =>
    intro i inside j inside' differ
    rw [row_eq i inside, row_eq j inside']
    exact offsetOf_disjoint (mem_order.mpr ⟨_, List.getElem_mem inside, rfl⟩)
      (mem_order.mpr ⟨_, List.getElem_mem inside', rfl⟩) differ
  case shared =>
    intro i inside j inside' same
    rw [row_eq i inside, row_eq j inside', same]
    exact ⟨rfl, rfl⟩
  case expected => rw [h.length_image, h.generate_eq.2]
  case size => exact h.length_image

end Complete

/-- What chip_add does to a list that was counted. -/
structure Adds (s t : Combiner) (entries : List ChipInfo) : Prop where
  count : t.dtb_count = t.chip_list.length
  listed : ∀ c ∈ t.chip_list, c ∈ entries ∨ c ∈ s.chip_list
  dtb_size : t.dtb_size = s.dtb_size
  dtb_file : t.dtb_file = s.dtb_file

theorem addChip_adds (count : s.dtb_count = s.chip_list.length) (c : ChipInfo) :
    Adds s (s.addChip c) [c] := by
  rw [addChip]
  split
  next chip_list added =>
    have length := (chipAdd_perm added).length_eq
    refine ⟨by simp only [length, count, List.length_cons], fun d mem => ?_, rfl, rfl⟩
    exact ((mem_chipAdd added).mp mem).imp_left List.mem_singleton.mpr
  next => exact ⟨count, fun _ mem => .inr mem, rfl, rfl⟩

theorem foldl_addChip_adds (count : s.dtb_count = s.chip_list.length) (entries : List ChipInfo) :
    Adds s (entries.foldl addChip s) entries := by
  induction entries generalizing s with
  | nil => exact ⟨count, fun _ mem => .inr mem, rfl, rfl⟩
  | cons c entries ih =>
      have first := addChip_adds count c
      have rest := ih first.count
      refine ⟨rest.count, fun d mem => ?_, rest.dtb_size.trans first.dtb_size,
        rest.dtb_file.trans first.dtb_file⟩
      rcases rest.listed d mem with later | before
      · exact .inl (List.mem_cons_of_mem _ later)
      · exact (first.listed d before).imp_left fun here =>
          List.mem_cons.mpr (.inl (List.mem_singleton.mp here))

/-- Whatever entries chip_add has put on a list, in whatever order: if their masters' files are
unchanged and the image is smaller than 2^31 bytes, the loops write an image that decodes. -/
theorem written_image_decodes (dir : InputDir) (ps : PageSize) (dtb_size : Nat → Nat)
    (dtb_file : Nat → Option Name) (entries : List ChipInfo)
    (dtbs : ∀ c ∈ entries, ({ new with dtb_size, dtb_file } : Combiner).HasDtb dir ps c.master)
    (small : (entries.foldl addChip { new with dtb_size, dtb_file }).imageSize ps < 2 ^ 31) :
    ∃ image, (entries.foldl addChip { new with dtb_size, dtb_file }).generate dir ps = some image ∧
      (entries.foldl addChip { new with dtb_size, dtb_file }).Decodes dir ps image := by
  have adds := foldl_addChip_adds (s := { new with dtb_size, dtb_file }) rfl entries
  have complete : (entries.foldl addChip { new with dtb_size, dtb_file }).Complete dir ps := by
    refine ⟨adds.count, fun c mem => ?_, small⟩
    rw [HasDtb, adds.dtb_size, adds.dtb_file]
    rcases adds.listed c mem with entry | none
    · exact dtbs c entry
    · cases none
  exact ⟨_, complete.generate_eq.1, complete.decodes⟩

/-- A master between two slaves of its own, and another master. -/
def slavesAround : List ChipInfo :=
  [⟨⟨126, 8, 0, 2⟩, 0, 0⟩, ⟨⟨126, 1, 0, 2⟩, 1, 0⟩, ⟨⟨126, 11, 0, 2⟩, 2, 0⟩, ⟨⟨130, 8, 0, 1⟩, 3, 3⟩]

theorem slaves_around_their_master_decode :
    let dir : InputDir := ⟨fun _ => true, fun _ => [], fun file =>
      if file = ['a'] then [0xd0, 0x0d] else [0xfe, 0xed, 0x01]⟩
    let start : Combiner := { new with
      dtb_size := fun _ => 64
      dtb_file := fun master => if master = 0 then some ['a'] else some ['b'] }
    ∃ image,
      (slavesAround.foldl addChip start).generate dir ⟨64, by decide, by decide⟩ = some image ∧
      (slavesAround.foldl addChip start).Decodes dir ⟨64, by decide, by decide⟩ image := by
  refine written_image_decodes _ _ _ _ slavesAround (fun c mem => ?_) (by decide)
  by_cases first : c.master = 0
  · exact ⟨['a'], by simp [first], rfl⟩
  · exact ⟨['b'], by simp [first], rfl⟩

end Combiner
end Msm8974.Dtbtool
