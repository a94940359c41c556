import Mathlib.Algebra.GroupWithZero.Nat
import Mathlib.Logic.Function.Basic
import Msm8974.Dtbtool.ChipList

/-!
main() of dtbtool.c: the entries of all DTBs of a directory are put on the list, a first pass
writes the table and assigns the offsets, a second one writes each master's DTB. Files do not
change meanwhile and every write is full. uint32_t fields are kept modulo 2^32; sizes
from 2^31 on, where the int counters overflow, have no meaning in C.
-/

namespace Msm8974.Dtbtool

abbrev Name := List Char

/-- What main() finds in the input directory; `getChipInfo` gives the entries of a file in the order
of their t_next chain, none for a file that it returns NULL for. -/
structure InputDir where
  isRegular : Name → Bool
  getChipInfo : Name → List ChipTuple
  contents : Name → List UInt8

/-- A page size that parse_commandline accepts. -/
structure PageSize where
  size : Nat
  pos : 0 < size
  le_max : size ≤ 1024 * 1024

/-- Zero bytes up to the next page, a whole page where one ends already. -/
def PageSize.padding (ps : PageSize) (n : Nat) : Nat := ps.size - n % ps.size

/-- main() while it collects the DTBs, with the master's fields at the master's address. -/
structure Combiner where
  chip_list : List ChipInfo
  dtb_count : Nat
  dtb_size : Nat → Nat
  dtb_file : Nat → Option Name
  allocated : Nat
  rc : Int

namespace Combiner

def new : Combiner := ⟨[], 0, fun _ => 0, fun _ => none, 0, 0⟩

/-- A call of chip_add with the count that follows it. -/
def addChip (s : Combiner) (c : ChipInfo) : Combiner :=
  match chipAdd c s.chip_list with
  | some chip_list => { s with chip_list, dtb_count := s.dtb_count + 1, rc := 0 }
  | none => { s with rc := -1 }

/-- The allocated entries of a file, whose master is the first of them. -/
def allocate (s : Combiner) (infos : List ChipTuple) : List ChipInfo :=
  infos.mapIdx fun i info => ⟨info, s.allocated + i, s.allocated⟩

/-- The entries of a file of `st_size` bytes. The rest of them is not added if the first one
is a duplicate. -/
def addChips (ps : PageSize) (filename : Name) (st_size : Nat) (s : Combiner) :
    List ChipInfo → Combiner
  | [] => s
  | chip :: rest =>
      match chipAdd chip s.chip_list with
      | none => { s with rc := -1 }
      | some chip_list =>
          let dtb_size := (st_size + ps.padding st_size) % 2 ^ 32
          rest.foldl addChip { s with
            chip_list
            dtb_count := s.dtb_count + 1
            dtb_size := Function.update s.dtb_size chip.address dtb_size
            dtb_file := Function.update s.dtb_file chip.address (some filename)
            rc := 0 }

end Combiner

/-- The names that main() takes for DTBs. -/
def isDtbName (d_name : Name) : Bool :=
  d_name.length > 4 && d_name.drop (d_name.length - 4) == ['.', 'd', 't', 'b']

/-- Whether main() tries to add the entries of a directory entry. -/
def InputDir.isDtb (dir : InputDir) (d_name : Name) : Bool :=
  dir.isRegular d_name && isDtbName d_name && dir.getChipInfo d_name != [] &&
    dir.contents d_name != []

/-- The body of the directory loop. -/
def addFile (dir : InputDir) (ps : PageSize) (s : Combiner) (d_name : Name) : Combiner :=
  if dir.isDtb d_name then
    let chips := s.allocate (dir.getChipInfo d_name)
    ({ s with allocated := s.allocated + chips.length } : Combiner).addChips ps d_name
      (dir.contents d_name).length chips
  else s

/-- The directory loop, over the entries in the order of readdir. -/
def collect (dir : InputDir) (ps : PageSize) (names : List Name) : Combiner :=
  names.foldl (addFile dir ps) .new

/-- A uint32_t as write() finds it in memory. -/
def u32 (n : Nat) : List UInt8 :=
  [UInt8.ofNat n, UInt8.ofNat (n / 2 ^ 8), UInt8.ofNat (n / 2 ^ 16), UInt8.ofNat (n / 2 ^ 24)]

def filler (n : Nat) : List UInt8 := List.replicate n 0

/-- The output file so far, with what the loops keep on the masters. -/
structure Output where
  bytes : List UInt8
  expected : Nat
  master_offset : Nat → Nat
  wroteDtb : Nat → Bool

namespace Combiner

/-- The size of header, table and end indicator. -/
def tableSize (s : Combiner) : Nat := 12 + 24 * s.dtb_count + 4

/-- The offset of the first DTB. -/
def dtb_offset (ps : PageSize) (s : Combiner) : Nat := s.tableSize + ps.padding s.tableSize

def header (ps : PageSize) (s : Combiner) : Output where
  bytes := [0x51, 0x43, 0x44, 0x54] ++ u32 2 ++ u32 s.dtb_count
  expected := s.dtb_offset ps
  master_offset _ := 0
  wroteDtb _ := false

/-- The first loop: an entry of the table. -/
def writeEntry (s : Combiner) (out : Output) (chip : ChipInfo) : Output :=
  let fields := u32 chip.chipset.toNat ++ u32 chip.platform.toNat ++ u32 chip.subtype.toNat ++
    u32 chip.revNum.toNat
  let dtb_size := s.dtb_size chip.master
  if out.master_offset chip.master ≠ 0 then
    { out with
      bytes := out.bytes ++ fields ++ u32 (out.master_offset chip.master) ++ u32 dtb_size }
  else
    { out with
      bytes := out.bytes ++ fields ++ u32 out.expected ++ u32 dtb_size
      master_offset := Function.update out.master_offset chip.master (out.expected % 2 ^ 32)
      expected := out.expected + dtb_size }

def writeTable (ps : PageSize) (s : Combiner) : Output :=
  let out := s.chip_list.foldl s.writeEntry (s.header ps)
  { out with bytes := out.bytes ++ u32 0 ++ filler (ps.padding s.tableSize) }

end Combiner

/-- The loop that copies a file in blocks of COPY_BLK bytes, with totBytesRead. A file has at most
as many blocks as bytes. -/
def copyFile : Nat → List UInt8 → List UInt8 × Nat → List UInt8 × Nat
  | 0, _, copied => copied
  | blocks + 1, file, (bytes, totBytesRead) =>
      match file.take 1024 with
      | [] => (bytes, totBytesRead)
      | buf => copyFile blocks (file.drop 1024) (bytes ++ buf, totBytesRead + buf.length)

namespace Combiner

/-- The second loop: the DTB of an entry's master, nothing after a mismatch of sizes. -/
def writeDtb (dir : InputDir) (ps : PageSize) (s : Combiner) (out : Output) (chip : ChipInfo) :
    Option Output :=
  if out.wroteDtb chip.master then some out
  else
    match s.dtb_file chip.master with
    | none => none
    | some filename =>
        let file := dir.contents filename
        let (bytes, totBytesRead) := copyFile file.length file (out.bytes, 0)
        let padding := ps.padding totBytesRead
        if (totBytesRead + padding) % 2 ^ 32 ≠ s.dtb_size chip.master then none
        else some { out with
          bytes := bytes ++ filler padding
          wroteDtb := Function.update out.wroteDtb chip.master true }

/-- The output file that main() leaves, if it does not unlink it. -/
def generate (dir : InputDir) (ps : PageSize) (s : Combiner) : Option (List UInt8) :=
  match s.chip_list.foldlM (s.writeDtb dir ps) (s.writeTable ps) with
  | none => none
  | some out => if out.expected ≠ out.bytes.length then none else some out.bytes

end Combiner

/-- main(): the result and the output file. -/
def combine (dir : InputDir) (ps : PageSize) (names : List Name) : Int × Option (List UInt8) :=
  let s := collect dir ps names
  if s.dtb_count = 0 then (s.rc, none)
  else
    match s.generate dir ps with
    | some image => (0, some image)
    | none => (-1, none)

end Msm8974.Dtbtool
