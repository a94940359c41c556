import Mathlib.Data.List.GetD
import Msm8974.Library.BitCount

/-!
loc_eng_agps_install_certificates and the message it sends. The bytes of the certificates lie in
blocks of the heap, and a pointer is the number of its block; `new` takes the next number.
-/

namespace Msm8974.CertInstall
open BitCount

def AGPS_CERTIFICATE_MAX_LENGTH : Nat := 2000

abbrev Heap := List (List UInt8)

structure DerEncodedCertificate where
  length : Nat
  data : Nat
  deriving DecidableEq

/-- The bytes of a certificate. -/
def DerEncodedCertificate.bytes (heap : Heap) (certificate : DerEncodedCertificate) : List UInt8 :=
  (heap.getD certificate.data []).take certificate.length

/-- The block of the certificate has the bytes that its length promises. -/
def DerEncodedCertificate.Held (heap : Heap) (certificate : DerEncodedCertificate) : Prop :=
  certificate.length ≤ (heap.getD certificate.data []).length

structure LocEngInstallAGpsCert where
  mpData : List DerEncodedCertificate
  mNumberOfCerts : Nat
  mSlotBitMask : BitVec 32
  deriving DecidableEq

/-- memcpy into the block `dst`. -/
def memcpy (heap : Heap) (dst src n : Nat) : Heap :=
  heap.set dst ((heap.getD src []).take n ++ (heap.getD dst []).drop n)

/-- The loop of the constructor over the certificates; `new` returns no NULL. -/
def copyCerts : List DerEncodedCertificate → Heap → List DerEncodedCertificate × Heap
  | [], heap => ([], heap)
  | certificate :: pData, heap =>
      let data := heap.length
      let heap := heap ++ [List.replicate certificate.length 0]
      let heap := memcpy heap data certificate.data certificate.length
      let (mpData, heap) := copyCerts pData heap
      (⟨certificate.length, data⟩ :: mpData, heap)

/-- The constructor of the message. -/
def LocEngInstallAGpsCert.new (pData : List DerEncodedCertificate) (slotBitMask : BitVec 32)
    (heap : Heap) : LocEngInstallAGpsCert × Heap :=
  let (mpData, heap) := copyCerts pData heap
  (⟨mpData, pData.length, slotBitMask⟩, heap)

/-- The loop that counts the bits of the mask. -/
def slotCountLoop (slotBitMaskCounter : BitVec 32) (slotCount : Nat) : Nat :=
  if nonzero : slotBitMaskCounter ≠ 0 then
    slotCountLoop (slotBitMaskCounter &&& (slotBitMaskCounter - 1)) (slotCount + 1)
  else slotCount
termination_by slotBitMaskCounter.toNat
decreasing_by exact clear_lt nonzero

inductive Result
  | AGPS_CERTIFICATE_OPERATION_SUCCESS
  | AGPS_CERTIFICATE_ERROR_GENERIC
  | AGPS_CERTIFICATE_ERROR_TOO_MANY_CERTIFICATES
  deriving DecidableEq

/-- `adapter` says whether the pointer to the adapter is set; `sent` is what sendMsg was given. -/
structure LocEngData where
  adapter : Bool
  AGPS_CERT_WRITABLE_MASK : BitVec 32
  heap : Heap
  sent : List LocEngInstallAGpsCert

/-- The scan of the lengths. -/
def checkLengths : List DerEncodedCertificate → Result
  | [] => .AGPS_CERTIFICATE_OPERATION_SUCCESS
  | certificate :: certificates =>
      if certificate.length > AGPS_CERTIFICATE_MAX_LENGTH then .AGPS_CERTIFICATE_ERROR_GENERIC
      else checkLengths certificates

/-- `numberOfCerts` is the length of the array. -/
def locEngAgpsInstallCertificates (certificates : List DerEncodedCertificate)
    (loc_eng_data : LocEngData) : Result × LocEngData :=
  let slotBitMask := loc_eng_data.AGPS_CERT_WRITABLE_MASK
  let slotCount := slotCountLoop slotBitMask 0
  if certificates.length = 0 then (.AGPS_CERTIFICATE_OPERATION_SUCCESS, loc_eng_data)
  else if ¬ loc_eng_data.adapter then (.AGPS_CERTIFICATE_ERROR_GENERIC, loc_eng_data)
  else if slotCount < certificates.length then
    (.AGPS_CERTIFICATE_ERROR_TOO_MANY_CERTIFICATES, loc_eng_data)
  else
    let ret_val := checkLengths certificates
    if ret_val = .AGPS_CERTIFICATE_OPERATION_SUCCESS then
      let (msg, heap) := LocEngInstallAGpsCert.new certificates slotBitMask loc_eng_data.heap
      (ret_val, { loc_eng_data with heap := heap, sent := loc_eng_data.sent ++ [msg] })
    else (ret_val, loc_eng_data)

theorem slotCountLoop_eq (mask : BitVec 32) (slotCount : Nat) :
    slotCountLoop mask slotCount = slotCount + (setBits mask).card := by
  fun_induction slotCountLoop mask slotCount with
  | case1 mask slotCount nonzero ih =>
      rw [ih, ← card_setBits_clear nonzero]
      omega
  | case2 mask slotCount zero =>
      obtain rfl : mask = 0 := not_not.mp zero
      simp

theorem checkLengths_eq_success_iff (certificates : List DerEncodedCertificate) :
    checkLengths certificates = .AGPS_CERTIFICATE_OPERATION_SUCCESS ↔
      ∀ certificate ∈ certificates, certificate.length ≤ AGPS_CERTIFICATE_MAX_LENGTH := by
  induction certificates with
  | nil => simp [checkLengths]
  | cons certificate certificates ih =>
      rw [checkLengths, List.forall_mem_cons, ← ih]
      split
      · simp
        omega
      · rw [and_iff_right (by omega)]

theorem checkLengths_ne_too_many (certificates : List DerEncodedCertificate) :
    checkLengths certificates ≠ .AGPS_CERTIFICATE_ERROR_TOO_MANY_CERTIFICATES := by
  induction certificates with
  | nil => simp [checkLengths]
  | cons certificate certificates ih =>
      rw [checkLengths]
      split
      · simp
      · exact ih

theorem DerEncodedCertificate.Held.append {heap : Heap} {certificate : DerEncodedCertificate}
    (held : certificate.Held heap) (blocks : Heap) :
    certificate.Held (heap ++ blocks) ∧
      certificate.bytes (heap ++ blocks) = certificate.bytes heap := by
  unfold Held bytes at *
  by_cases inside : certificate.data < heap.length
  · rw [List.getD_append _ _ _ _ inside]
    exact ⟨held, rfl⟩
  · rw [List.getD_eq_default _ _ (Nat.le_of_not_lt inside)] at held ⊢
    have empty : certificate.length = 0 := Nat.le_zero.mp held
    simp [empty]

/-- The copies lie in new blocks, one after the other. -/
theorem copyCerts_eq (pData : List DerEncodedCertificate) (heap : Heap)
    (held : ∀ certificate ∈ pData, certificate.Held heap) :
    copyCerts pData heap =
      ((pData.zipIdx heap.length).map fun copy => ⟨copy.1.length, copy.2⟩,
        heap ++ pData.map (DerEncodedCertificate.bytes heap)) := by
  induction pData generalizing heap with
  | nil => simp [copyCerts]
  | cons certificate pData ih =>
      obtain ⟨own, others⟩ := List.forall_mem_cons.mp held
      have copied : memcpy (heap ++ [List.replicate certificate.length 0]) heap.length
          certificate.data certificate.length = heap ++ [certificate.bytes heap] := by
        have kept := (own.append [List.replicate certificate.length 0]).2
        rw [DerEncodedCertificate.bytes] at kept
        rw [memcpy, kept]
        simp
      have later := ih (heap ++ [certificate.bytes heap])
        fun c mem => ((others c mem).append _).1
      have same : pData.map (DerEncodedCertificate.bytes (heap ++ [certificate.bytes heap])) =
          pData.map (DerEncodedCertificate.bytes heap) :=
        List.map_congr_left fun c mem => ((others c mem).append _).2
      rw [copyCerts]
      simp only [copied, later, same]
      simp [List.zipIdx_cons]

/-- When the certificates can be installed. -/
def Installable (certificates : List DerEncodedCertificate) (loc_eng_data : LocEngData) : Prop :=
  0 < certificates.length ∧
    certificates.length ≤ (setBits loc_eng_data.AGPS_CERT_WRITABLE_MASK).card ∧
    (∀ certificate ∈ certificates, certificate.length ≤ AGPS_CERTIFICATE_MAX_LENGTH) ∧
    loc_eng_data.adapter

/-- The message holds the bytes of the certificates, in blocks that no one had before. -/
structure DeepCopy (certificates : List DerEncodedCertificate) (heap heap' : Heap)
    (msg : LocEngInstallAGpsCert) : Prop where
  count : msg.mNumberOfCerts = certificates.length
  lengths : msg.mpData.map (·.length) = certificates.map (·.length)
  bytes : msg.mpData.map (·.bytes heap') = certificates.map (·.bytes heap)
  fresh : ∀ copy ∈ msg.mpData, heap.length ≤ copy.data
  distinct : (msg.mpData.map (·.data)).Nodup

theorem new_is_deepCopy (certificates : List DerEncodedCertificate) (slotBitMask : BitVec 32)
    (heap : Heap) (held : ∀ certificate ∈ certificates, certificate.Held heap) :
    let new := LocEngInstallAGpsCert.new certificates slotBitMask heap
    DeepCopy certificates heap new.2 new.1 := by
  simp only [LocEngInstallAGpsCert.new, copyCerts_eq certificates heap held]
  refine ⟨rfl, List.ext_getElem (by simp) fun i _ _ => by simp,
    List.ext_getElem (by simp) fun i _ inside => ?_, fun copy mem => ?_, ?_⟩
  · have inside : i < certificates.length := by simpa using inside
    simp [DerEncodedCertificate.bytes, inside]
  · obtain ⟨⟨certificate, data⟩, inList, rfl⟩ := List.mem_map.mp mem
    exact List.le_snd_of_mem_zipIdx inList
  · simp [Function.comp_def, List.nodup_range']

theorem install_of_installable {certificates : List DerEncodedCertificate}
    {loc_eng_data : LocEngData} (installable : Installable certificates loc_eng_data) :
    locEngAgpsInstallCertificates certificates loc_eng_data =
      let new := LocEngInstallAGpsCert.new certificates loc_eng_data.AGPS_CERT_WRITABLE_MASK
        loc_eng_data.heap
      (.AGPS_CERTIFICATE_OPERATION_SUCCESS,
        { loc_eng_data with heap := new.2, sent := loc_eng_data.sent ++ [new.1] }) := by
  obtain ⟨some, slots, short, adapter⟩ := installable
  unfold locEngAgpsInstallCertificates
  simp only [slotCountLoop_eq, Nat.zero_add]
  rw [if_neg (by omega), if_neg (by simp [adapter]), if_neg (by omega),
    (checkLengths_eq_success_iff certificates).mpr short, if_pos rfl]

theorem install_of_not_installable {certificates : List DerEncodedCertificate}
    {loc_eng_data : LocEngData} (refused : ¬ Installable certificates loc_eng_data) :
    (locEngAgpsInstallCertificates certificates loc_eng_data).2 = loc_eng_data ∧
      ((locEngAgpsInstallCertificates certificates loc_eng_data).1 =
        .AGPS_CERTIFICATE_ERROR_TOO_MANY_CERTIFICATES ↔ loc_eng_data.adapter ∧
          (setBits loc_eng_data.AGPS_CERT_WRITABLE_MASK).card < certificates.length) := by
  unfold locEngAgpsInstallCertificates
  simp only [slotCountLoop_eq, Nat.zero_add]
  by_cases none : certificates.length = 0
  · simp [none]
  · rw [if_neg none]
    by_cases adapter : loc_eng_data.adapter
    · rw [if_neg (not_not.mpr adapter)]
      split
      · next tooMany => exact ⟨rfl, by simp [adapter, tooMany]⟩
      · next slots =>
          have long : checkLengths certificates ≠ .AGPS_CERTIFICATE_OPERATION_SUCCESS := by
            rw [Ne, checkLengths_eq_success_iff]
            exact fun short => refused ⟨by omega, by omega, short, adapter⟩
          rw [if_neg long]
          exact ⟨rfl, by simp [slots, checkLengths_ne_too_many]⟩
    · rw [if_pos adapter]
      exact ⟨rfl, by simp [adapter]⟩

/-- The whole list is sent in one message or nothing is, and the result says which. -/
theorem certificates_are_installed_together (certificates : List DerEncodedCertificate)
    (loc_eng_data : LocEngData)
    (held : ∀ certificate ∈ certificates, certificate.Held loc_eng_data.heap) :
    let result := locEngAgpsInstallCertificates certificates loc_eng_data
    (Installable certificates loc_eng_data → ∃ msg, result.2.sent = loc_eng_data.sent ++ [msg] ∧
      msg.mSlotBitMask = loc_eng_data.AGPS_CERT_WRITABLE_MASK ∧
      DeepCopy certificates loc_eng_data.heap result.2.heap msg) ∧
    (¬ Installable certificates loc_eng_data → result.2.sent = loc_eng_data.sent) ∧
    (result.1 = .AGPS_CERTIFICATE_ERROR_TOO_MANY_CERTIFICATES ↔ loc_eng_data.adapter ∧
      (setBits loc_eng_data.AGPS_CERT_WRITABLE_MASK).card < certificates.length) ∧
    (result.1 ≠ .AGPS_CERTIFICATE_OPERATION_SUCCESS →
      result.2.sent = loc_eng_data.sent) := by
  by_cases installable : Installable certificates loc_eng_data
  · rw [install_of_installable installable]
    refine ⟨fun _ => ⟨_, rfl, rfl, new_is_deepCopy certificates _ _ held⟩, absurd installable, ?_,
      fun failed => absurd rfl failed⟩
    have slots := installable.2.1
    simp
    omega
  · obtain ⟨same, tooMany⟩ := install_of_not_installable installable
    exact ⟨fun all => absurd all installable, fun _ => by rw [same], tooMany, fun _ => by rw [same]⟩

/-- Two slots, and the blocks of two certificates. -/
def twoSlots : LocEngData where
  adapter := true
  AGPS_CERT_WRITABLE_MASK := 0x8001
  heap := [[1, 2, 3], [4]]
  sent := []

def twoCertificates : List DerEncodedCertificate := [⟨3, 0⟩, ⟨1, 1⟩]

theorem two_certificates_are_installed :
    ∃ msg, (locEngAgpsInstallCertificates twoCertificates twoSlots).2.sent = [msg] ∧
      DeepCopy twoCertificates twoSlots.heap
        (locEngAgpsInstallCertificates twoCertificates twoSlots).2.heap msg := by
  obtain ⟨msg, sent, -, copy⟩ := (certificates_are_installed_together twoCertificates twoSlots
    (by simp [twoCertificates, DerEncodedCertificate.Held, twoSlots])).1
      ⟨by decide, by decide, by simp [twoCertificates, AGPS_CERTIFICATE_MAX_LENGTH], rfl⟩
  exact ⟨msg, sent, copy⟩

end Msm8974.CertInstall
