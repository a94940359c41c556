import Msm8974.Library.Runs
import Msm8974.LocApi.NmeaSentences

/-!
What a full position report takes from the satellite reports before it. loc_eng_nmea_generate_sv
caches the used satellites and the dilution of precision together; a full position report uses
both and clears both, but a blank one uses neither and clears only the second.
-/

namespace Msm8974.Nmea
open CReal Runs

section Cache
variable {F : Type} [CReal F]

/-- The used satellites and the dilution of precision that GPGSA and GPGGA print. -/
def taken (data : LocEngData F) (locationExtended : GpsLocationExtended F) :
    List Nat × Option (F × F × F) :=
  (svUsedList data.sv_used_mask, dop data locationExtended)

/-- A satellite report as it is cached. -/
structure Cached (F : Type) where
  gps_used_in_fix_mask : BitVec 32
  pdop : F
  hdop : F
  vdop : F

namespace Cached

/-- What the satellite report has to give. -/
def given (sv : Cached F) : List Nat × Option (F × F × F) :=
  (svUsedList sv.gps_used_in_fix_mask,
    if literal 0 < sv.pdop ∧ literal 0 < sv.hdop ∧ literal 0 < sv.vdop then
      some (sv.pdop, sv.hdop, sv.vdop)
    else none)

def withoutDop (sv : Cached F) : Cached F :=
  { sv with pdop := literal 0, hdop := literal 0, vdop := literal 0 }

def empty : Cached F := ⟨0, literal 0, literal 0, literal 0⟩

theorem withoutDop_given (irrefl : ¬ (literal 0 : F) < literal 0) (sv : Cached F) :
    sv.withoutDop.given = (sv.given.1, none) :=
  congrArg (Prod.mk _) (if_neg fun positive => irrefl positive.1)

/-- The satellites without the dilution of precision are all or nothing. -/
theorem withoutDop_together_iff (irrefl : ¬ (literal 0 : F) < literal 0) (sv : Cached F) :
    (sv.withoutDop.given = ([], none) ∨ sv.withoutDop.given = sv.given) ↔
      sv.given.1 = [] ∨ sv.given.2 = none := by
  rw [withoutDop_given irrefl]
  refine or_congr ⟨fun neither => (Prod.mk.inj neither).1, fun unused => ?_⟩
    ⟨fun given => (Prod.ext_iff.mp given).2.symm, fun undiluted => Prod.ext rfl undiluted.symm⟩
  rw [unused]

theorem empty_given (irrefl : ¬ (literal 0 : F) < literal 0) :
    (empty : Cached F).given = ([], none) :=
  withoutDop_given irrefl empty

end Cached

/-- What is cached, as if of one satellite report. -/
def LocEngData.cached (data : LocEngData F) : Cached F :=
  ⟨data.sv_used_mask, data.pdop, data.hdop, data.vdop⟩

/-- A position report without a dilution of precision of its own takes what is cached. -/
theorem taken_eq_given (data : LocEngData F) {locationExtended : GpsLocationExtended F}
    (carries : locationExtended.flags &&& GPS_LOCATION_EXTENDED_HAS_DOP = 0) :
    taken data locationExtended = data.cached.given := by
  rw [taken, dop, if_neg (not_not.mpr carries)]
  rfl

/-- The generator with the last satellite report, until a full position report has come after
it, and whether a blank one has. -/
structure Generator (F : Type) where
  data : LocEngData F
  latest : Option (Cached F)
  blanked : Bool

/-- Satellite reports carry the dilution of precision, position reports do not. -/
def Report.CarriesDop : Report F → Prop
  | .position _ _ locationExtended _ =>
      locationExtended.flags &&& GPS_LOCATION_EXTENDED_HAS_DOP = 0
  | .sv _ locationExtended => locationExtended.flags &&& GPS_LOCATION_EXTENDED_HAS_DOP ≠ 0

instance : (report : Report F) → Decidable report.CarriesDop
  | .position _ _ _ _ => inferInstanceAs (Decidable (_ = _))
  | .sv _ _ => inferInstanceAs (Decidable (_ ≠ _))

namespace Generator

/-- The history behind a report. -/
def note (s : Generator F) : Report F → Option (Cached F) × Bool
  | .sv svStatus locationExtended =>
      (some ⟨svStatus.gps_used_in_fix_mask, locationExtended.pdop, locationExtended.hdop,
        locationExtended.vdop⟩, false)
  | .position gmtime location _ generate_nmea =>
      match gmtime (location.timestamp.tdiv 1000) with
      | none => (s.latest, s.blanked)
      | some _ => if generate_nmea then (none, false) else (s.latest, true)

def next (s : Generator F) (report : Report F) : Generator F :=
  ⟨(report.generate s.data).data, (s.note report).1, (s.note report).2⟩

def step (s : Generator F) (report : Report F) : Option (Generator F) :=
  if report.CarriesDop ∧ report.Fits s.data then some (s.next report) else none

/-- A full position report takes all from the last satellite report, or takes nothing. It is the
first one behind that report. -/
def TakesTogether (s : Generator F) : Report F → Generator F → Prop
  | .position gmtime location locationExtended true, _ =>
      (gmtime (location.timestamp.tdiv 1000)).isSome →
        taken s.data locationExtended = ([], none) ∨
          ∃ sv ∈ s.latest, taken s.data locationExtended = sv.given
  | _, _ => True

/-- A full position report is the first position report behind a satellite report, or that one
has no used satellite or no dilution of precision to give. -/
def NotBlanked (s : Generator F) : Report F → Prop
  | .position gmtime location _ true =>
      (gmtime (location.timestamp.tdiv 1000)).isSome → s.blanked →
        ∀ sv ∈ s.latest, sv.given.1 = [] ∨ sv.given.2 = none
  | _ => True

/-- What the history leaves in the cache. -/
def remaining (s : Generator F) : Cached F :=
  match s.latest with
  | none => .empty
  | some sv => if s.blanked then sv.withoutDop else sv

def Follows (s : Generator F) : Prop := s.data.cached = s.remaining

theorem generate_data {data : LocEngData F} {report : Report F} (fits : report.Fits data) :
    (report.generate data).data =
      match report with
      | .sv svStatus locationExtended => data.cache svStatus locationExtended
      | .position gmtime location _ generate_nmea =>
          match gmtime (location.timestamp.tdiv 1000) with
          | none => data
          | some _ =>
              (if generate_nmea then { data with sv_used_mask := 0 } else data).clearDop := by
  have all := sendAll_of_fits fits data.nmea_cb
  cases report with
  | sv svStatus locationExtended =>
      rw [Report.drafts] at all
      simp [Report.generate, generateSv, all]
  | position gmtime location locationExtended generate_nmea =>
      rw [Report.drafts] at all
      simp only [Report.generate, generatePos]
      cases timed : gmtime (location.timestamp.tdiv 1000) with
      | none => rfl
      | some pTm =>
          simp only [timed] at all
          simp only [all, if_true]

theorem cached_clearDop (data : LocEngData F) : data.clearDop.cached = data.cached.withoutDop :=
  rfl

theorem cached_cache (data : LocEngData F) (svStatus : HaxxSvStatus F)
    {locationExtended : GpsLocationExtended F}
    (carries : locationExtended.flags &&& GPS_LOCATION_EXTENDED_HAS_DOP ≠ 0) :
    (data.cache svStatus locationExtended).cached =
      ⟨svStatus.gps_used_in_fix_mask, locationExtended.pdop, locationExtended.hdop,
        locationExtended.vdop⟩ := by
  rw [LocEngData.cache]
  exact congrArg LocEngData.cached (if_pos carries)

theorem remaining_blanked (s : Generator F) (data : LocEngData F) :
    remaining ⟨data, s.latest, true⟩ = s.remaining.withoutDop := by
  rw [remaining, remaining]
  cases s.latest with
  | none => rfl
  | some sv => cases s.blanked <;> rfl

theorem step_follows {s t : Generator F} {report : Report F} (follows : s.Follows)
    (taken : s.step report = some t) : t.Follows := by
  obtain ⟨⟨carries, fits⟩, rfl⟩ := Option.ite_some_none_eq_some.mp taken
  rw [Follows, next, generate_data fits]
  cases report with
  | sv svStatus locationExtended => exact cached_cache s.data svStatus carries
  | position gmtime location locationExtended generate_nmea =>
      cases timed : gmtime (location.timestamp.tdiv 1000) with
      | none =>
          simp only [note, timed]
          exact follows
      | some pTm =>
          simp only [note, timed]
          cases generate_nmea with
          | true => rfl
          | false =>
              calc s.data.clearDop.cached
                _ = s.data.cached.withoutDop := cached_clearDop s.data
                _ = s.remaining.withoutDop := by rw [follows]
                _ = _ := (remaining_blanked s _).symm

/-- Exactly the full reports behind a blank one can mix. -/
theorem takesTogether_iff_notBlanked (irrefl : ¬ (literal 0 : F) < literal 0)
    {s t : Generator F} {report : Report F} (follows : s.Follows)
    (taken : s.step report = some t) : s.TakesTogether report t ↔ s.NotBlanked report := by
  obtain ⟨⟨carries, -⟩, -⟩ := Option.ite_some_none_eq_some.mp taken
  cases report with
  | sv svStatus locationExtended => exact Iff.rfl
  | position gmtime location locationExtended generate_nmea =>
      cases generate_nmea with
      | false => exact Iff.rfl
      | true =>
          refine imp_congr_right fun timed => ?_
          rw [taken_eq_given s.data carries, follows, remaining]
          cases latest : s.latest with
          | none => exact iff_of_true (.inl (Cached.empty_given irrefl)) fun _ _ mem => nomatch mem
          | some sv =>
              cases blanked : s.blanked with
              | false => exact iff_of_true (.inr ⟨sv, rfl, rfl⟩) fun h => nomatch h
              | true =>
                  simp only [if_true, Option.mem_some_iff, exists_eq_left', forall_eq',
                    true_imp_iff]
                  exact sv.withoutDop_together_iff irrefl

/-- All full reports of a run take what belongs together exactly if none behind a blank one
mixes. -/
theorem full_reports_take_together_iff (irrefl : ¬ (literal 0 : F) < literal 0)
    {data : LocEngData F} (unfilled : data.cached = .empty) {reports : List (Report F)}
    {t : Generator F} (run : Run step ⟨data, none, false⟩ reports t) :
    EachStep step TakesTogether ⟨data, none, false⟩ reports ↔
      Meets step NotBlanked ⟨data, none, false⟩ reports := by
  have initial : Follows ⟨data, none, false⟩ := unfilled
  refine run.eachStep_iff_meets_of_invariant ?_ ?_ initial
  · intro s report t follows taken
    exact takesTogether_iff_notBlanked irrefl follows taken
  · intro s report t follows _ taken
    exact step_follows follows taken

end Generator
end Cache

section Mixing

/-- The used satellites are 1, 3 and 32. -/
def satelliteReport : Report ℚ :=
  .sv ⟨[⟨1, 30, 40, 120⟩], 0x80000005⟩ ⟨0x0001, 0, 3 / 2, 1, 9 / 10, 0⟩

def positionReport (generate_nmea : Bool) : Report ℚ :=
  .position (fun _ => some ⟨70, 0, 1, 0, 0, 0⟩) ⟨0x0003, 3751 / 100, -12211 / 100, 30, 0, 0, 0⟩
    ⟨0x0006, -10, 0, 0, 0, 4⟩ generate_nmea

def started : Generator ℚ := ⟨⟨true, .standalone, 0, 0, 0, 0⟩, none, false⟩

open Generator in
theorem full_before_blank_takes_together :
    EachStep step TakesTogether started
      [satelliteReport, positionReport true, positionReport false, positionReport true] := by
  let second := started.next satelliteReport
  let third := second.next (positionReport true)
  let fourth := third.next (positionReport false)
  have first_step : started.step satelliteReport = some second := if_pos (by decide +kernel)
  have second_step : second.step (positionReport true) = some third := if_pos (by decide +kernel)
  have third_step : third.step (positionReport false) = some fourth := if_pos (by decide +kernel)
  have fourth_step : fourth.step (positionReport true) = some _ := if_pos (by decide +kernel)
  have run := Run.cons first_step (.cons second_step (.cons third_step
    (.cons fourth_step (.nil _))))
  refine (full_reports_take_together_iff (lt_irrefl (0 : ℚ)) rfl run).mpr ?_
  change Meets step NotBlanked started _
  rw [meets_cons first_step, meets_cons second_step, meets_cons third_step,
    meets_cons fourth_step]
  exact ⟨trivial, fun _ blanked => (nomatch blanked), trivial, fun _ _ _ mem => (nomatch mem),
    trivial⟩

open Generator in
/-- The satellites without the dilution of precision that was reported with them. -/
theorem full_behind_blank_mixes :
    ∃ t, Run step started [satelliteReport, positionReport false, positionReport true] t ∧
      ¬ EachStep step TakesTogether started
        [satelliteReport, positionReport false, positionReport true] := by
  let second := started.next satelliteReport
  let third := second.next (positionReport false)
  have first_step : started.step satelliteReport = some second := if_pos (by decide +kernel)
  have second_step : second.step (positionReport false) = some third := if_pos (by decide +kernel)
  have third_step : third.step (positionReport true) = some _ := if_pos (by decide +kernel)
  refine ⟨_, .cons first_step (.cons second_step (.cons third_step (.nil _))), fun together => ?_⟩
  have full := together [satelliteReport, positionReport false] (positionReport true) [] _ _ rfl
    (.cons first_step (.cons second_step (.nil _))) third_step rfl
  obtain neither | ⟨sv, latest, given⟩ := full
  · exact absurd (congrArg Prod.fst neither) (by decide +kernel)
  · obtain rfl := Option.some.inj latest
    exact absurd (congrArg Prod.snd given) (by decide +kernel)

end Mixing

end Msm8974.Nmea
