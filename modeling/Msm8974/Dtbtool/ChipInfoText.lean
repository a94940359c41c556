import Msm8974.Dtbtool.ChipList
import Msm8974.Utils.LocCfg

/-!
getChipInfo of dtbtool.c, which reads the decompiled DTB line by line. A line is the list of its
characters up to the terminator. malloc() does not fail; it gives the entries of a file the
addresses 0, 1, and so on. A t_next chain is the list of its nodes.
-/

namespace Msm8974.Dtbtool
open LocCfg (isspace digit)

abbrev CString := List Char

def QCDT_DT_TAG : CString :=
  ['q', 'c', 'o', 'm', ',', 'm', 's', 'm', '-', 'i', 'd', ' ', '=', ' ', '<']

def QCDT_BOARD_TAG : CString :=
  ['q', 'c', 'o', 'm', ',', 'b', 'o', 'a', 'r', 'd', '-', 'i', 'd', ' ', '=', ' ', '<']

/-- Where `needle` first occurs. -/
def strstr (needle : CString) : CString → Option Nat
  | [] => if needle.isPrefixOf [] then some 0 else none
  | c :: haystack =>
      if needle.isPrefixOf (c :: haystack) then some 0
      else (strstr needle haystack).map (· + 1)

/-- The delimiters that getChipInfo passes to strtok_r. -/
def isBlank (c : Char) : Bool := c = ' ' || c = '\t'

/-- strtok_r: the token, and what the save pointer leads to behind it. -/
def strtok_r (s : CString) : Option (CString × CString) :=
  match s.dropWhile isBlank with
  | [] => none
  | s => some (s.takeWhile (!isBlank ·), (s.dropWhile (!isBlank ·)).drop 1)

/-- The string that is left where strtok_r has put a terminator behind the first token. -/
def terminated (s : CString) : CString :=
  s.takeWhile isBlank ++ (s.dropWhile isBlank).takeWhile (!isBlank ·)

/-- The base that the prefix of a number says, and where its digits start. -/
def radix : CString → Nat × CString
  | '0' :: x :: d :: rest =>
      if x.toLower = 'x' ∧ digit d < 16 then (16, d :: rest) else (8, '0' :: x :: d :: rest)
  | '0' :: rest => (8, '0' :: rest)
  | s => (10, s)

def numeral (s : CString) : Nat :=
  let (base, digits) := radix s
  (digits.takeWhile (digit · < base)).foldl (fun n c => n * base + digit c) 0

/-- Whether there is a minus sign, and what follows the sign. -/
def sign : CString → Bool × CString
  | '-' :: rest => (true, rest)
  | '+' :: rest => (false, rest)
  | s => (false, s)

/-- strtoul with base 0 and an unsigned long of `w` bits. -/
def strtoul (w : Nat) (nptr : CString) : BitVec w :=
  let (negative, digits) := sign (nptr.dropWhile isspace)
  if 2 ^ w ≤ numeral digits then BitVec.allOnes w
  else if negative then -BitVec.ofNat w (numeral digits)
  else BitVec.ofNat w (numeral digits)

/-- The variables of a token loop. -/
structure Entry where
  data : List (BitVec 32)
  entryValid : Bool
  entryEnded : Bool
  sptr : CString

/-- The inner loop of a token loop, for the tokens that are left. -/
def readEntry (w : Nat) : Nat → Entry → Entry
  | 0, e => e
  | left + 1, e =>
      match strtok_r e.sptr with
      | some (tok, sptr) =>
          if tok.head? = some '>' then { e with sptr, entryEnded := true, entryValid := false }
          else readEntry w left { e with sptr, data := e.data ++ [(strtoul w tok).setWidth 32] }
      | none =>
          readEntry w left
            { e with data := e.data ++ [0], entryValid := false, entryEnded := true }

/-- A token loop that reads `n` numbers an entry, and what it does with an entry that is valid. -/
def entryLoop {χ : Type} (w n : Nat) (add : List (BitVec 32) → χ → χ) :
    Nat → CString → χ → Option χ
  | 0, _, _ => none
  | rounds + 1, sptr, chain =>
      let e := readEntry w n ⟨[], true, false, sptr⟩
      -- Version 1 returns before it looks at entryValid, but then entryValid is 0.
      let chain := if e.entryValid then add e.data chain else chain
      if e.entryEnded then some chain else entryLoop w n add rounds e.sptr chain

/-- A node goes in behind the first one. -/
def insertSecond {β : Type} (tmp : β) : List β → List β
  | [] => [tmp]
  | head :: t_next => head :: tmp :: t_next

/-- A new chipInfo_t, whose master is the head of the chain. -/
def insertChip (info : ChipTuple) (chip : List ChipInfo) : List ChipInfo :=
  insertSecond ⟨info, chip.length, (chip.head?.map ChipInfo.address).getD chip.length⟩ chip

/-- Version 1: the triplets of the first line with the tag, and what *num becomes. -/
def getChipInfo_v1 (w : Nat) : List CString → Option (List ChipInfo × Option Nat)
  | [] => some ([], none)
  | line :: lines =>
      match strstr QCDT_DT_TAG line with
      | none => getChipInfo_v1 w lines
      | some pos => do
          let chip ← entryLoop w 3
            (fun data => insertChip ⟨data.getD 0 0, data.getD 1 0, 0, data.getD 2 0⟩)
            (line.length + 1) (line.drop (pos + QCDT_DT_TAG.length)) []
          return (chip, some chip.length)

/-- The chains that version 2 reads, with their lengths count1 and count2. -/
structure Ids where
  chipId : List (BitVec 32 × BitVec 32)
  chipSt : List (BitVec 32 × BitVec 32)
  entryEndedDT : Bool
  entryEndedST : Bool

def insertPair (data : List (BitVec 32)) (chain : List (BitVec 32 × BitVec 32)) :
    List (BitVec 32 × BitVec 32) :=
  insertSecond (data.getD 0 0, data.getD 1 0) chain

/-- Version 2 on a line: first the one tag, then the other one in what strtok_r left of it. -/
def readLine (w : Nat) (line : CString) (ids : Ids) : Option Ids := do
  let (line, ids) ←
    match strstr QCDT_DT_TAG line with
    | none => some (line, ids)
    | some pos => do
        let start := pos + QCDT_DT_TAG.length
        let chipId ← entryLoop w 2 insertPair (line.length + 1) (line.drop start) ids.chipId
        some (line.take start ++ terminated (line.drop start),
          { ids with chipId, entryEndedDT := true })
  match strstr QCDT_BOARD_TAG line with
  | none => some ids
  | some pos => do
      let start := pos + QCDT_BOARD_TAG.length
      let chipSt ← entryLoop w 2 insertPair (line.length + 1) (line.drop start) ids.chipSt
      some { ids with chipSt, entryEndedST := true }

/-- The nested loops over both chains. -/
def crossProduct (ids : Ids) : List ChipInfo :=
  ids.chipId.foldl (fun chip cId =>
    ids.chipSt.foldl (fun chip cSt => insertChip ⟨cId.1, cSt.1, cSt.2, cId.2⟩ chip) chip) []

def getChipInfo_v2 (w : Nat) (lines : List CString) : Option (List ChipInfo × Option Nat) := do
  let ids ← lines.foldlM (fun ids line => readLine w line ids) ⟨[], [], false, false⟩
  if ids.chipId.length = 0 then return ([], none)
  else if ids.chipSt.length = 0 then return ([], none)
  else if ids.entryEndedST && ids.entryEndedDT then
    return (crossProduct ids, some ids.chipId.length)
  else return ([], none)

/-- `getChipInfo` for the lines that dtc prints. -/
def getChipInfo (w msmversion : Nat) (lines : List CString) :
    Option (List ChipInfo × Option Nat) :=
  if msmversion = 1 then getChipInfo_v1 w lines
  else if msmversion = 2 then getChipInfo_v2 w lines
  else some ([], none)

end Msm8974.Dtbtool
