import Msm8974.LocApi.Nmea

/-!
What is passed to nmea_cb. The text is a sentence with its checksum, but the length that
loc_eng_nmea_put_checksum returns does not count the `$` that it skips.
-/

namespace Msm8974.Nmea

namespace Draft

/-- The sentence up to the checksum. -/
def text (draft : Draft) : Text := draft.checked.flatten ++ draft.unchecked

/-- No piece is cut, nor the checksum. -/
def Fits (draft : Draft) : Prop := draft.text.length + 5 < NMEA_SENTENCE_MAX_LENGTH

instance (draft : Draft) : Decidable draft.Fits := inferInstanceAs (Decidable (_ < _))

end Draft

namespace Sentence

theorem snprintf_text {s : Sentence} {printed : Text}
    (fits : s.text.length + printed.length < NMEA_SENTENCE_MAX_LENGTH) :
    (s.snprintf printed).text = s.text ++ printed := by
  have room : printed.length ≤ s.lengthRemaining - 1 := by
    rw [lengthRemaining]
    omega
  exact congrArg (s.text ++ ·) (List.take_of_length_le room)

theorem foldlM_append {s : Sentence} {pieces : List Text}
    (fits : s.text.length + pieces.flatten.length < NMEA_SENTENCE_MAX_LENGTH) :
    ∃ s', pieces.foldlM append s = some s' ∧ s'.text = s.text ++ pieces.flatten := by
  induction pieces generalizing s with
  | nil => exact ⟨s, rfl, (List.append_nil _).symm⟩
  | cons piece pieces ih =>
      rw [List.flatten_cons, List.length_append] at fits
      have text : (s.snprintf piece).text = s.text ++ piece := snprintf_text (by omega)
      have printed : s.append piece = some (s.snprintf piece) := by
        apply if_neg
        rw [lengthRemaining]
        omega
      obtain ⟨s', rest, text'⟩ := @ih (s.snprintf piece) (by
        rw [text, List.length_append]
        omega)
      refine ⟨s', ?_, ?_⟩
      · rw [List.foldlM_cons, printed]
        exact rest
      · rw [text', text, List.flatten_cons, List.append_assoc]

end Sentence

/-- What nmea_cb gets of a sentence. -/
def Draft.sent (draft : Draft) : Sent where
  pNmea := draft.text ++ Sentence.ending (Sentence.checksum (draft.text.drop 1))
  length := (draft.text.drop 1).length + 5

theorem Sentence.send_of_fits {s : Sentence} {draft : Draft} (text : s.text = draft.text)
    (fits : draft.Fits) (nmea_cb : Bool) :
    s.send nmea_cb = if nmea_cb then [draft.sent] else [] := by
  have room : s.text.length + (ending (checksum (s.text.drop 1))).length <
      NMEA_SENTENCE_MAX_LENGTH := by
    rw [text]
    exact fits
  rw [send, putChecksum]
  simp only [snprintf_text room]
  rw [text]
  rfl

theorem Draft.print_of_fits {draft : Draft} (fits : draft.Fits) :
    ∃ s, draft.print = some s ∧ s.text = draft.text := by
  have small : draft.checked.flatten.length + draft.unchecked.length + 5 <
      NMEA_SENTENCE_MAX_LENGTH := by
    rw [← List.length_append]
    exact fits
  obtain ⟨s, printed, checked⟩ := @Sentence.foldlM_append .empty draft.checked (by
    change 0 + _ < _
    omega)
  refine ⟨s.snprintf draft.unchecked, ?_, ?_⟩
  · rw [print, printed]
    rfl
  · have checked : s.text = draft.checked.flatten := checked
    rw [Sentence.snprintf_text (by rw [checked]; omega), checked, text]

/-- Sentences that fit are all sent. -/
theorem sendAll_of_fits {drafts : List Draft} (fits : ∀ draft ∈ drafts, draft.Fits)
    (nmea_cb : Bool) :
    sendAll nmea_cb drafts = (if nmea_cb then drafts.map Draft.sent else [], true) := by
  induction drafts with
  | nil => cases nmea_cb <;> rfl
  | cons draft drafts ih =>
      obtain ⟨s, printed, text⟩ := Draft.print_of_fits (fits draft List.mem_cons_self)
      have rest := ih fun other mem => fits other (List.mem_cons_of_mem _ mem)
      have sent := s.send_of_fits text (fits draft List.mem_cons_self) nmea_cb
      simp only [sendAll, printed, rest, sent]
      cases nmea_cb <;> rfl

/-- The digits of "%02X". -/
def upperHexDigits : Text := "0123456789ABCDEF".toList

/-- `$`, a body, `*`, two hexadecimal digits of the exclusive or of the body, CR and LF. -/
def Checksummed (sentence : Text) : Prop :=
  ∃ body high low, sentence = '$' :: body ++ ['*', high, low, '\r', '\n'] ∧
    let sum := (body.map fun c => UInt8.ofNat c.toNat).foldl (· ^^^ ·) 0
    upperHexDigits[sum.toNat / 16]? = some high ∧ upperHexDigits[sum.toNat % 16]? = some low

theorem hexDigit_eq {n : Nat} (small : n < 16) : upperHexDigits[n]? = some (hexDigit n) := by
  revert n
  decide

theorem Draft.sent_checksummed {draft : Draft} (begins : draft.text.head? = some '$') :
    Checksummed draft.sent.pNmea ∧ draft.sent.length + 1 = draft.sent.pNmea.length := by
  rw [sent]
  generalize draft.text = text at begins
  cases text with
  | nil => cases begins
  | cons c body =>
      obtain rfl := Option.some.inj begins
      refine ⟨⟨body, _, _, rfl, ?_⟩, ?_⟩
      · have sum : (body.map fun c => UInt8.ofNat c.toNat).foldl (· ^^^ ·) 0 =
            Sentence.checksum body := List.foldl_map
        have below : (Sentence.checksum body).toNat < 256 := UInt8.toNat_lt _
        dsimp only
        rw [sum]
        exact ⟨hexDigit_eq (by omega), hexDigit_eq (Nat.mod_lt _ (by decide))⟩
      · rw [List.length_append]
        rfl

section Reports
variable {F : Type} [CReal F]

/-- What the two functions of the generator are called with. -/
inductive Report (F : Type)
  | position (gmtime : Int → Option Tm) (location : GpsLocation F)
      (locationExtended : GpsLocationExtended F) (generate_nmea : Bool)
  | sv (svStatus : HaxxSvStatus F) (locationExtended : GpsLocationExtended F)

namespace Report

def generate (data : LocEngData F) : Report F → Generated F
  | .position gmtime location locationExtended generate_nmea =>
      generatePos gmtime data location locationExtended generate_nmea
  | .sv svStatus locationExtended => generateSv data svStatus locationExtended

/-- A position report without a time that gmtime has a date for. -/
def Untimed : Report F → Prop
  | .position gmtime location _ _ => gmtime (location.timestamp.tdiv 1000) = none
  | .sv _ _ => False

/-- The sentences for a report. -/
def drafts (data : LocEngData F) : Report F → List Draft
  | .position gmtime location locationExtended generate_nmea =>
      match gmtime (location.timestamp.tdiv 1000) with
      | none => []
      | some pTm => posDrafts pTm data location locationExtended generate_nmea
  | .sv svStatus _ => gpgsv svStatus.sv_list ++ glgsv svStatus.sv_list

/-- All formatting succeeds. -/
def Fits (data : LocEngData F) (report : Report F) : Prop :=
  ∀ draft ∈ report.drafts data, draft.Fits

variable {data : LocEngData F} {report : Report F}

instance : Decidable (report.Fits data) := inferInstanceAs (Decidable (∀ _ ∈ _, _))

theorem sent_of_fits (fits : report.Fits data) :
    (report.generate data).sent =
      if data.nmea_cb then (report.drafts data).map Draft.sent else [] := by
  have all := sendAll_of_fits fits data.nmea_cb
  cases report with
  | position gmtime location locationExtended generate_nmea =>
      rw [generate, generatePos]
      rw [drafts] at all ⊢
      cases timed : gmtime (location.timestamp.tdiv 1000) with
      | none => cases data.nmea_cb <;> rfl
      | some pTm =>
          rw [timed] at all
          exact congrArg Prod.fst all
  | sv svStatus locationExtended => exact congrArg Prod.fst all

theorem begins_of_mem_gsvLoop {address : Text} (begins : address.head? = some '$')
    {inRange : Int → Bool} {count sentenceCount left sentenceNumber : Nat}
    {svs : List (GpsSvInfo F)} {draft : Draft}
    (mem : draft ∈ gsvLoop address inRange count sentenceCount left sentenceNumber svs) :
    draft.text.head? = some '$' := by
  induction left generalizing sentenceNumber svs with
  | zero => cases mem
  | succ left ih =>
      rw [gsvLoop] at mem
      cases List.mem_cons.mp mem with
      | inl first =>
          subst first
          cases address with
          | nil => cases begins
          | cons c address => exact begins
      | inr rest => exact ih rest

theorem begins_of_mem_gsv {address : Text} (begins : address.head? = some '$')
    {inRange : Int → Bool} {count : Nat} {svs : List (GpsSvInfo F)} {draft : Draft}
    (mem : draft ∈ gsv address inRange count svs) : draft.text.head? = some '$' := by
  rw [gsv] at mem
  split at mem
  · obtain rfl := List.mem_singleton.mp mem
    cases address with
    | nil => cases begins
    | cons c address => exact begins
  · exact begins_of_mem_gsvLoop begins mem

theorem gsv_ne_nil (address : Text) (inRange : Int → Bool) (count : Nat)
    (svs : List (GpsSvInfo F)) : gsv address inRange count svs ≠ [] := by
  rw [gsv]
  split
  next => exact List.cons_ne_nil _ _
  next positive =>
    have sentences : ∃ n, (count / 4 + if count % 4 ≠ 0 then 1 else 0) = n + 1 := by
      apply Nat.exists_eq_succ_of_ne_zero
      split <;> omega
    obtain ⟨n, sentences⟩ := sentences
    simp only [sentences, gsvLoop]
    exact List.cons_ne_nil _ _

/-- Every sentence begins with the `$` that the checksum leaves out. -/
theorem begins {draft : Draft} (mem : draft ∈ report.drafts data) :
    draft.text.head? = some '$' := by
  cases report with
  | position gmtime location locationExtended generate_nmea =>
      rw [drafts] at mem
      split at mem
      next => cases mem
      next pTm _ =>
        rw [posDrafts] at mem
        split at mem
        · simp only [List.mem_cons, List.not_mem_nil, or_false] at mem
          rcases mem with rfl | rfl | rfl | rfl
          · rfl
          · change (vtgCourse location ++ _ ++ _).head? = some '$'
            rw [vtgCourse]
            split <;> rfl
          · rfl
          · rfl
        · rw [blankDrafts] at mem
          simp only [List.mem_cons, List.not_mem_nil, or_false] at mem
          rcases mem with rfl | rfl | rfl | rfl <;> rfl
  | sv svStatus locationExtended =>
      cases List.mem_append.mp mem with
      | inl gps => exact begins_of_mem_gsv rfl gps
      | inr glonass => exact begins_of_mem_gsv rfl glonass

theorem drafts_eq_nil_iff (data : LocEngData F) (report : Report F) :
    report.drafts data = [] ↔ report.Untimed := by
  cases report with
  | position gmtime location locationExtended generate_nmea =>
      rw [drafts, Untimed]
      cases gmtime (location.timestamp.tdiv 1000) with
      | none => simp
      | some pTm => cases generate_nmea <;> simp [posDrafts, blankDrafts]
  | sv svStatus locationExtended =>
      exact iff_of_false (fun none => gsv_ne_nil _ _ _ _ (List.append_eq_nil_iff.mp none).1) id

end Report

/-- The length counts every byte of the sentence, and the checksum is the one of its bytes. -/
def WellSent (sent : Sent) : Prop := sent.length = sent.pNmea.length ∧ Checksummed sent.pNmea

/-- Every sentence that is passed to nmea_cb has its form and checksum, and a length that is one
too small; so the length is right only if none is passed. -/
theorem lengths_are_right_iff (data : LocEngData F) (report : Report F) (fits : report.Fits data) :
    ((∀ sent ∈ (report.generate data).sent, WellSent sent) ↔
      data.nmea_cb = false ∨ report.Untimed) ∧
    ∀ sent ∈ (report.generate data).sent,
      Checksummed sent.pNmea ∧ sent.length + 1 = sent.pNmea.length := by
  have sent := Report.sent_of_fits fits
  have each : ∀ sent ∈ (report.generate data).sent,
      Checksummed sent.pNmea ∧ sent.length + 1 = sent.pNmea.length := by
    intro call mem
    rw [sent] at mem
    split at mem
    · obtain ⟨draft, made, rfl⟩ := List.mem_map.mp mem
      exact Draft.sent_checksummed (Report.begins made)
    · cases mem
  refine ⟨⟨fun right => ?_, fun none => ?_⟩, each⟩
  · rw [← Report.drafts_eq_nil_iff data]
    cases drafts : report.drafts data with
    | nil => exact .inr rfl
    | cons draft drafts' =>
        apply Or.inl
        cases passed : data.nmea_cb with
        | false => rfl
        | true =>
            have mem : draft.sent ∈ (report.generate data).sent := by
              rw [sent, passed, drafts]
              exact List.mem_cons_self
            have length := (right _ mem).1
            have short := (each _ mem).2
            omega
  · have quiet : (report.generate data).sent = [] := by
      rw [sent]
      cases none with
      | inl unset => rw [unset]; rfl
      | inr untimed =>
          rw [(Report.drafts_eq_nil_iff data report).mpr untimed, List.map_nil, ite_self]
    rw [quiet]
    exact fun _ mem => nomatch mem

end Reports

/-- The blank sentences for a report that is not final. -/
def blankReport : Report ℚ :=
  .position (fun _ => some ⟨70, 0, 1, 0, 0, 0⟩) ⟨0, 0, 0, 0, 0, 0, 0⟩ ⟨0, 0, 0, 0, 0, 0⟩ false

def withCallback : LocEngData ℚ := ⟨true, .standalone, 0, 0, 0, 0⟩

/-- "$GPGSA,A,1,,,,,,,,,,,,,,,*1E\r\n" comes with 29 for its 30 bytes. -/
theorem blank_sentence_is_one_longer :
    blankReport.Fits withCallback ∧
      ¬ ∀ sent ∈ (blankReport.generate withCallback).sent, WellSent sent := by
  refine ⟨by decide, fun right => ?_⟩
  have mem : (⟨"$GPGSA,A,1,,,,,,,,,,,,,,,*1E\r\n".toList, 29⟩ : Sent) ∈
      (blankReport.generate withCallback).sent := by decide
  have length := (right _ mem).1
  revert length
  decide

theorem blank_sentences_fit :
    ((∀ sent ∈ (blankReport.generate withCallback).sent, WellSent sent) ↔
      withCallback.nmea_cb = false ∨ blankReport.Untimed) ∧
    ∀ sent ∈ (blankReport.generate withCallback).sent,
      Checksummed sent.pNmea ∧ sent.length + 1 = sent.pNmea.length :=
  lengths_are_right_iff withCallback blankReport (by decide)

end Msm8974.Nmea
