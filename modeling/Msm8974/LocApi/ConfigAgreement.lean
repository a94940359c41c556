import Msm8974.LocApi.LocEngReinit

/-!
What the modem has been told since its last restart, against the values that loc_eng_reinit would
send now. A value that the modem does not hold yet is bound to reach it: a reinit is to come, the
caller still has to send it, or the messages in flight leave it behind when they are processed.
-/

namespace Msm8974.Reinit
open ConfigUpdate (GpsConf ConfParam restored)
open Runs Registers

/-- What a message sets. -/
def LocMsg.item : LocMsg → Option Item
  | .init | .up | .suplMode => none
  | .gnssConstellationConfig => some .gnssConstellationConfig
  | .suplVer _ => some .suplVer
  | .lppConfig _ => some .lppConfig
  | .sensorControlConfig .. => some .sensorControlConfig
  | .aGlonassProtocol _ => some .aGlonassProtocol
  | .sensorProperties .. => some .sensorProperties
  | .sensorPerfControlConfig .. => some .sensorPerfControlConfig
  | .enableData .. => some .enableData
  | .setXtraVersionCheck _ => some .setXtraVersionCheck
  | .setCapabilities => some .setCapabilities

/-- What it sets that to: of an enableData only whether data is enabled. -/
def LocMsg.plain : LocMsg → LocMsg
  | .enableData _ mEnable => .enableData none (if mEnable ≠ 0 then 1 else 0)
  | msg => msg

def Event.entry : Event → Entry Item LocMsg
  | .restart => .clear
  | .proc msg =>
      match msg.item with
      | some s => .write s msg.plain
      | none => .other

/-- What the modem was last told of an item since it restarted. -/
def told (s : Item) (log : List Event) : Option LocMsg := last s (log.map Event.entry)

/-- The log once the messages in flight are processed. -/
def ahead (log : List Event) (msgs : List LocMsg) (built : Option LocMsg) : List Event :=
  log ++ (msgs ++ built.toList).map Event.proc

/-- A reinit that will send the item is to come. -/
def Comes (w : World) (s : Item) : Prop :=
  w.adapter = false ∨ w.caller = .initialising ∨ .init ∈ w.msgs ∨ .up ∈ w.msgs ∨ s ∈ w.todo

/-- The item that a value of gps_conf is sent as. -/
def sentAs : ConfParam → Option Item
  | .SUPL_VER => some .suplVer
  | .LPP_PROFILE => some .lppConfig
  | .A_GLONASS_POS_PROTOCOL_SELECT => some .aGlonassProtocol
  | .GPS_LOCK | .SUPL_MODE | .CAPABILITIES => none

/-- The caller still has to send the item. -/
def Owed (w : World) (s : Item) : Prop :=
  match w.caller with
  | .idle | .initialising => False
  | .sending gps_conf_tmp rest =>
      ∃ p ∈ rest, sentAs p = some s ∧ param gps_conf_tmp p ≠ param w.gps_conf p
  | .available _ _ => s = .enableData

def Bound (w : World) (s : Item) : Prop :=
  Comes w s ∨ Owed w s ∨ told s (ahead w.log w.msgs w.built) = some (w.msg s)

/-- Each item of loc_eng_reinit is bound to reach the modem with its current value. -/
def AllBound (w : World) : Prop := ∀ s ∈ reinit w.sap_conf, Bound w s

/-- The worker is not about to queue an older value of the item. -/
def Fresh (w : World) (s : Item) : Prop :=
  ∀ msg ∈ w.built, msg.item = some s → msg.plain = w.msg s

def CarefulChange (w : World) : Caller → Prop
  | .sending gps_conf_tmp (p :: _) =>
      ∀ s ∈ sentAs p, param gps_conf_tmp p ≠ param w.gps_conf p → Comes w s ∨ Fresh w s
  | _ => True

def Careful (w : World) : Label → Prop
  | .sendChange => CarefulChange w w.caller
  | .setAvailable available apn =>
      apn.isSome ∨ Comes w .enableData ∨ (available = 0 ↔ w.agpsStatus = 0)
  | .sendAvailable => Comes w .enableData ∨ Fresh w .enableData
  | _ => True

/-- What the caller's place says about the rest. -/
def Sound (w : World) : Prop :=
  match w.caller with
  | .idle | .initialising => True
  | .sending _ rest => rest.Nodup
  | .available available _ => w.agpsStatus = available

variable {w t : World} {l : Label} {s : Item} {msg : LocMsg} {log : List Event}
  {msgs : List LocMsg} {built : Option LocMsg} {p : ConfParam}

section Messages

@[simp] theorem World.item_msg (w : World) (s : Item) : (w.msg s).item = some s := by
  cases s <;> rfl

@[simp] theorem World.plain_msg (w : World) (s : Item) : (w.msg s).plain = w.msg s := by
  cases s with
  | enableData => by_cases off : w.agpsStatus = 0 <;> simp [World.msg, LocMsg.plain, off]
  | _ => rfl

@[simp] theorem World.proc_sap_conf (w : World) (added : BitVec 32) (msg : LocMsg) :
    (w.proc added msg).sap_conf = w.sap_conf := by
  cases msg <;> rfl

theorem mem_reinit {sap_conf : SapConf} (sent : sentAs p = some s) : s ∈ reinit sap_conf := by
  cases p <;> cases sent <;> simp [reinit]

theorem enableData_mem_reinit {sap_conf : SapConf} : .enableData ∈ reinit sap_conf := by
  simp [reinit]

theorem sentAs_injective {q : ConfParam} (first : sentAs p = some s) (second : sentAs q = some s) :
    p = q := by
  cases p <;> cases first <;> cases q <;> cases second <;> rfl

theorem change_sentAs (w : World) (sent : sentAs p = some s) :
    change w.gps_conf p = [w.msg s] := by
  cases p <;> cases sent <;> rfl

theorem item_of_mem_change {conf : GpsConf} (mem : msg ∈ change conf p) :
    msg.item = sentAs p := by
  cases p <;> simp_all [change, sentAs, LocMsg.item]

theorem change_ne (conf : GpsConf) (mem : msg ∈ change conf p) : msg ≠ .init ∧ msg ≠ .up := by
  cases p <;> simp_all [change]

/-- A value that differs is that of a parameter which the update compares. -/
theorem exists_changed (w : World) (config_data : List (ConfParam × BitVec 32))
    (caller : Caller) (ne : w.msg s ≠
      { w with gps_conf := w.gps_conf.update config_data, caller := caller }.msg s) :
    ∃ p ∈ compared, sentAs p = some s ∧
      param w.gps_conf p ≠ param (w.gps_conf.update config_data) p := by
  cases s with
  | suplVer => exact ⟨.SUPL_VER, by simp [compared], rfl, fun same => ne (congrArg _ same)⟩
  | lppConfig => exact ⟨.LPP_PROFILE, by simp [compared], rfl, fun same => ne (congrArg _ same)⟩
  | aGlonassProtocol =>
      exact ⟨.A_GLONASS_POS_PROTOCOL_SELECT, by simp [compared], rfl,
        fun same => ne (congrArg _ same)⟩
  | _ => exact (ne rfl).elim

end Messages

section Told

theorem silent_entry (silent : msg.item ≠ some s) : (Event.entry (.proc msg)).Silent s := by
  cases found : msg.item with
  | none => simp only [Event.entry, found, Entry.Silent]
  | some k =>
      simp only [Event.entry, found, Entry.Silent]
      exact fun same => silent (found.trans (congrArg some same))

theorem entry_eq (tells : msg.item = some s) :
    Event.entry (.proc msg) = .write s msg.plain := by
  simp only [Event.entry, tells]

theorem told_queue_silent (silent : msg.item ≠ some s) :
    told s (ahead log (msgs ++ [msg]) built) = told s (ahead log msgs built) := by
  simp only [told, ahead, List.map_append, List.append_assoc, List.map_cons,
    List.cons_append, List.nil_append]
  rw [← List.append_assoc, last_insert_silent (silent_entry silent), List.append_assoc]

theorem told_append_silent (silent : ∀ m ∈ msgs, m.item ≠ some s) {queue : List LocMsg} :
    told s (ahead log (queue ++ msgs) built) = told s (ahead log queue built) := by
  induction msgs generalizing queue with
  | nil => rw [List.append_nil]
  | cons m msgs ih =>
      obtain ⟨first, rest⟩ := List.forall_mem_cons.mp silent
      rw [List.append_cons, ih rest, told_queue_silent first]

/-- A queued message counts unless the worker queues another one for the item after it. -/
theorem told_queue_iff (tells : msg.item = some s) :
    told s (ahead log (msgs ++ [msg]) built) = some msg.plain ↔
      ∀ m ∈ built, m.item = some s → m.plain = msg.plain := by
  have split : (ahead log (msgs ++ [msg]) built).map Event.entry =
      (log ++ msgs.map Event.proc).map Event.entry ++
        .write s msg.plain :: (built.toList.map Event.proc).map Event.entry := by
    simp [ahead, entry_eq tells]
  rw [told, split]
  cases built with
  | none => exact iff_of_true (last_insert_write (by simp)) (by simp)
  | some m =>
      by_cases same : m.item = some s
      · simp only [Option.toList_some, List.map_cons, List.map_nil, entry_eq same]
        rw [List.append_cons, last_concat_write]
        simp [same]
      · rw [last_insert_write (by simpa using silent_entry same)]
        simp [same]

theorem told_built (tells : msg.item = some s) :
    told s (ahead log msgs (some msg)) = some msg.plain := by
  have split : (ahead log msgs (some msg)).map Event.entry =
      (log ++ msgs.map Event.proc).map Event.entry ++ [.write s msg.plain] := by
    simp [ahead, entry_eq tells]
  rw [told, split, last_concat_write]

theorem told_built_silent (silent : msg.item ≠ some s) :
    told s (ahead log msgs (some msg)) = told s (ahead log msgs none) := by
  have moved : ahead log msgs (some msg) = ahead log (msgs ++ [msg]) none := by
    simp [ahead]
  rw [moved, told_queue_silent silent]

theorem ahead_send : ahead log (msgs ++ [msg]) none = ahead log msgs (some msg) := by
  simp [ahead]

theorem ahead_proc : ahead (log ++ [.proc msg]) msgs built = ahead log (msg :: msgs) built := by
  simp [ahead]

end Told

section Steps

inductive Moves (w : World) : Label → World → Prop
  | initAgain (idle : w.caller = .idle) (set : w.adapter = true) : Moves w .init w
  | init (idle : w.caller = .idle) (unset : w.adapter = false) :
      Moves w .init { w with adapter := true, caller := .initialising }
  | sendInit (here : w.caller = .initialising) :
      Moves w .sendInit { w with msgs := w.msgs ++ [.init], caller := .idle }
  | parse (config_data : List (ConfParam × BitVec 32)) (idle : w.caller = .idle) :
      Moves w (.parse config_data)
        { w with
          gps_conf := w.gps_conf.update config_data, caller := .sending w.gps_conf compared }
  | sendChange {gps_conf_tmp : GpsConf} {p : ConfParam} {rest : List ConfParam}
      (here : w.caller = .sending gps_conf_tmp (p :: rest)) (set : w.adapter = true)
      (differs : param gps_conf_tmp p ≠ param w.gps_conf p) :
      Moves w .sendChange
        { w with msgs := w.msgs ++ change w.gps_conf p, caller := .sending gps_conf_tmp rest }
  | skipChange {gps_conf_tmp : GpsConf} {p : ConfParam} {rest : List ConfParam}
      (here : w.caller = .sending gps_conf_tmp (p :: rest))
      (skips : w.adapter = false ∨ param gps_conf_tmp p = param w.gps_conf p) :
      Moves w .sendChange { w with caller := .sending gps_conf_tmp rest }
  | restore {gps_conf_tmp : GpsConf} (here : w.caller = .sending gps_conf_tmp []) :
      Moves w .restore { w with gps_conf := restored gps_conf_tmp w.gps_conf, caller := .idle }
  | setAvailable (available : BitVec 32) (apn : List Char) (idle : w.caller = .idle)
      (set : w.adapter = true) :
      Moves w (.setAvailable available (some apn))
        { w with agpsStatus := available, caller := .available available apn }
  | storeAvailable (available : BitVec 32) (apn : Option (List Char)) (idle : w.caller = .idle)
      (returns : w.adapter = false ∨ apn = none) :
      Moves w (.setAvailable available apn) { w with agpsStatus := available, caller := .idle }
  | sendAvailable {available : BitVec 32} {apn : List Char}
      (here : w.caller = .available available apn) :
      Moves w .sendAvailable
        { w with
          msgs := w.msgs ++ [.enableData (some (apn.take MAX_APN_LEN)) available], caller := .idle }
  | proc (added : BitVec 32) {msg : LocMsg} {msgs : List LocMsg} (free : w.built = none)
      (done : w.todo = []) (first : w.msgs = msg :: msgs) :
      Moves w (.proc added)
        (World.proc { w with msgs := msgs, log := w.log ++ [.proc msg] } added msg)
  | read {item : Item} {todo : List Item} (free : w.built = none) (next : w.todo = item :: todo) :
      Moves w .read { w with built := some (w.msg item), todo := todo }
  | send {msg : LocMsg} (built : w.built = some msg) :
      Moves w .send { w with msgs := w.msgs ++ [msg], built := none }
  | modemRestart :
      Moves w .modemRestart
        { w with
          msgs := if w.adapter then w.msgs ++ [.up] else w.msgs, log := w.log ++ [.restart] }

theorem moves (h : step w l = some t) : Moves w l t := by
  cases l with
  | init =>
      simp only [step] at h
      split at h
      · rename_i idle
        cases set : w.adapter with
        | true =>
            obtain rfl : w = t := by simpa [set] using h
            exact .initAgain idle set
        | false =>
            obtain rfl := Option.some.inj (by simpa [set] using h)
            exact .init idle set
      · cases h
  | sendInit =>
      simp only [step] at h
      split at h
      · cases h
        exact .sendInit ‹_›
      · cases h
  | parse config_data =>
      simp only [step] at h
      split at h
      · cases h
        exact .parse config_data ‹_›
      · cases h
  | sendChange =>
      simp only [step] at h
      split at h
      · cases h
        split
        · rename_i here sends
          exact .sendChange here sends.1 sends.2
        · rename_i here skips
          refine .skipChange here ?_
          by_cases set : w.adapter = true
          · exact .inr (not_not.mp fun differs => skips ⟨set, differs⟩)
          · exact .inl (Bool.not_eq_true _ ▸ set)
      · cases h
  | restore =>
      simp only [step] at h
      split at h
      · cases h
        exact .restore ‹_›
      · cases h
  | setAvailable available apn =>
      simp only [step] at h
      split at h
      · cases h
        rename_i idle
        split
        · exact .setAvailable available _ idle ‹_›
        · rename_i returns
          refine .storeAvailable available _ idle (or_iff_not_imp_left.mpr fun set => ?_)
          refine Option.eq_none_iff_forall_ne_some.mpr fun apn given => ?_
          exact returns apn (by simpa using set) given
      · cases h
  | sendAvailable =>
      simp only [step] at h
      split at h
      · cases h
        exact .sendAvailable ‹_›
      · cases h
  | proc added =>
      simp only [step] at h
      split at h
      · cases h
        exact .proc added ‹_› ‹_› ‹_›
      · cases h
  | read =>
      simp only [step] at h
      split at h
      · cases h
        exact .read ‹_› ‹_›
      · cases h
  | send =>
      simp only [step] at h
      split at h
      · cases h
        exact .send ‹_›
      · cases h
  | modemRestart =>
      cases h
      exact .modemRestart

theorem Sound.moves (sound : Sound w) (moves : Moves w l t) : Sound t := by
  cases moves with
  | initAgain | read | send | modemRestart => exact sound
  | proc added free done first =>
      rename_i msg msgs
      cases msg <;> exact sound
  | init | sendInit | restore | storeAvailable | sendAvailable => trivial
  | parse => simp [Sound, compared]
  | setAvailable => rfl
  | sendChange here | skipChange here =>
      simp only [Sound, here] at sound
      exact (List.nodup_cons.mp sound).2

/-- A reinit that comes still comes after a step that takes nothing away. -/
theorem Comes.mono (comes : Comes w s) (adapter : w.adapter = false → t.adapter = false)
    (caller : w.caller ≠ .initialising ∨ t.caller = .initialising)
    (msgs : ∀ m ∈ w.msgs, m ∈ t.msgs) (todo : ∀ i ∈ w.todo, i ∈ t.todo) : Comes t s := by
  obtain unset | initialising | queued | queued | next := comes
  · exact .inl (adapter unset)
  · exact .inr (.inl (caller.resolve_left fun ne => ne initialising))
  · exact .inr (.inr (.inl (msgs _ queued)))
  · exact .inr (.inr (.inr (.inl (msgs _ queued))))
  · exact .inr (.inr (.inr (.inr (todo _ next))))

/-- Queueing a value brings no reinit. -/
theorem comes_queue {caller : Caller} (ordinary : ∀ m ∈ msgs, m ≠ .init ∧ m ≠ .up)
    (before : w.caller ≠ .initialising) (after : caller ≠ .initialising) :
    Comes { w with msgs := w.msgs ++ msgs, caller := caller } s ↔ Comes w s := by
  have init : .init ∉ msgs := fun mem => (ordinary _ mem).1 rfl
  have up : .up ∉ msgs := fun mem => (ordinary _ mem).2 rfl
  simp [Comes, init, up, before, after]

theorem allBound_sendChange {gps_conf_tmp : GpsConf} {rest : List ConfParam} (sound : Sound w)
    (bound : AllBound w) (here : w.caller = .sending gps_conf_tmp (p :: rest))
    (differs : param gps_conf_tmp p ≠ param w.gps_conf p) :
    AllBound { w with
      msgs := w.msgs ++ change w.gps_conf p, caller := .sending gps_conf_tmp rest } ↔
      Careful w .sendChange := by
  have nodup : (p :: rest).Nodup := by simpa only [Sound, here] using sound
  have comes : ∀ s, Comes { w with
      msgs := w.msgs ++ change w.gps_conf p, caller := .sending gps_conf_tmp rest } s ↔
      Comes w s := fun s =>
    comes_queue (fun m mem => change_ne _ mem) (by simp [here]) (by simp)
  have told_iff : ∀ s, sentAs p = some s →
      (told s (ahead w.log (w.msgs ++ change w.gps_conf p) w.built) = some (w.msg s) ↔
        Fresh w s) := by
    intro s sent
    have queued : told s (ahead w.log (w.msgs ++ [w.msg s]) w.built) = some (w.msg s).plain ↔
        ∀ m ∈ w.built, m.item = some s → m.plain = (w.msg s).plain := told_queue_iff (w.item_msg s)
    rw [w.plain_msg s] at queued
    rw [change_sentAs w sent]
    exact queued
  simp only [Careful, CarefulChange, here]
  constructor
  · intro after s sent _
    obtain soon | ⟨q, mem, same, -⟩ | told := after s (mem_reinit sent)
    · exact .inl ((comes s).mp soon)
    · obtain rfl := sentAs_injective sent same
      exact ((List.nodup_cons.mp nodup).1 mem).elim
    · exact .inr ((told_iff s sent).mp told)
  · intro careful s mem
    by_cases sent : sentAs p = some s
    · obtain soon | fresh := careful s sent differs
      · exact .inl ((comes s).mpr soon)
      · exact .inr (.inr ((told_iff s sent).mpr fresh))
    · obtain soon | owed | told := bound s mem
      · exact .inl ((comes s).mpr soon)
      · simp only [Owed, here] at owed
        obtain ⟨q, mem, same, changed⟩ := owed
        obtain rfl | mem := List.mem_cons.mp mem
        · exact (sent same).elim
        · exact .inr (.inl ⟨q, mem, same, changed⟩)
      · refine .inr (.inr (.trans (told_append_silent fun m mem => ?_) told))
        rw [item_of_mem_change mem]
        exact sent

theorem bound_parse {config_data : List (ConfParam × BitVec 32)} (idle : w.caller = .idle)
    (bound : Bound w s) :
    Bound { w with
      gps_conf := w.gps_conf.update config_data, caller := .sending w.gps_conf compared } s := by
  obtain soon | owed | told := bound
  · exact .inl (soon.mono id (.inl (by simp [idle])) (fun _ => id) fun _ => id)
  · simp only [Owed, idle] at owed
  · by_cases same : w.msg s = { w with
        gps_conf := w.gps_conf.update config_data
        caller := .sending w.gps_conf compared }.msg s
    · exact .inr (.inr (told.trans (congrArg some same)))
    · exact .inr (.inl (exists_changed w config_data _ same))

theorem bound_skipChange {gps_conf_tmp : GpsConf} {rest : List ConfParam}
    (here : w.caller = .sending gps_conf_tmp (p :: rest))
    (skips : w.adapter = false ∨ param gps_conf_tmp p = param w.gps_conf p) (bound : Bound w s) :
    Bound { w with caller := .sending gps_conf_tmp rest } s := by
  obtain unset | same := skips
  · exact .inl (.inl unset)
  · obtain soon | owed | told := bound
    · exact .inl (soon.mono id (.inl (by simp [here])) (fun _ => id) fun _ => id)
    · simp only [Owed, here] at owed
      obtain ⟨q, mem, sent, changed⟩ := owed
      obtain rfl | mem := List.mem_cons.mp mem
      · exact (changed same).elim
      · exact .inr (.inl ⟨q, mem, sent, changed⟩)
    · exact .inr (.inr told)

theorem bound_restore {gps_conf_tmp : GpsConf} (here : w.caller = .sending gps_conf_tmp [])
    (bound : Bound w s) :
    Bound { w with gps_conf := restored gps_conf_tmp w.gps_conf, caller := .idle } s := by
  obtain soon | owed | told := bound
  · exact .inl (soon.mono id (.inl (by simp [here])) (fun _ => id) fun _ => id)
  · simp [Owed, here] at owed
  · refine .inr (.inr (told.trans (congrArg some ?_)))
    cases s <;> rfl

theorem allBound_storeAvailable (available : BitVec 32) {apn : Option (List Char)}
    (bound : AllBound w) (idle : w.caller = .idle) (returns : w.adapter = false ∨ apn = none) :
    AllBound { w with agpsStatus := available, caller := .idle } ↔
      Careful w (.setAvailable available apn) := by
  have comes : ∀ s, Comes { w with agpsStatus := available, caller := .idle } s ↔ Comes w s := by
    intro s
    simp [Comes, idle]
  constructor
  · intro after
    obtain soon | owed | told := after .enableData enableData_mem_reinit
    · exact .inr (.inl ((comes _).mp soon))
    · simp only [Owed] at owed
    · obtain soon | owed | before := bound .enableData enableData_mem_reinit
      · exact .inr (.inl soon)
      · simp only [Owed, idle] at owed
      · have same := before.symm.trans told
        refine .inr (.inr ?_)
        by_cases old : w.agpsStatus = 0 <;> by_cases new : available = 0 <;>
          simp_all [World.msg]
  · intro careful s mem
    obtain soon | owed | told := bound s mem
    · exact .inl ((comes s).mpr soon)
    · simp only [Owed, idle] at owed
    · by_cases data : s = .enableData
      · subst data
        obtain given | soon | same := careful
        · obtain unset | absent := returns
          · exact .inl (.inl unset)
          · simp [absent] at given
        · exact .inl ((comes _).mpr soon)
        · refine .inr (.inr (told.trans (congrArg some ?_)))
          exact congrArg (LocMsg.enableData none) (if_congr (not_congr same.symm) rfl rfl)
      · refine .inr (.inr (told.trans (congrArg some ?_)))
        cases s with
        | enableData => exact (data rfl).elim
        | _ => rfl

theorem bound_setAvailable (available : BitVec 32) (apn : List Char) (idle : w.caller = .idle)
    (bound : Bound w s) :
    Bound { w with agpsStatus := available, caller := .available available apn } s := by
  obtain soon | owed | told := bound
  · exact .inl (soon.mono id (.inl (by simp [idle])) (fun _ => id) fun _ => id)
  · simp only [Owed, idle] at owed
  · by_cases data : s = .enableData
    · exact .inr (.inl data)
    · refine .inr (.inr (told.trans (congrArg some ?_)))
      cases s with
      | enableData => exact (data rfl).elim
      | _ => rfl

theorem allBound_sendAvailable {available : BitVec 32} {apn : List Char} (sound : Sound w)
    (bound : AllBound w) (here : w.caller = .available available apn) :
    AllBound { w with
      msgs := w.msgs ++ [.enableData (some (apn.take MAX_APN_LEN)) available], caller := .idle } ↔
      Careful w .sendAvailable := by
  simp only [Sound, here] at sound
  subst sound
  have comes : ∀ s, Comes { w with
      msgs := w.msgs ++ [.enableData (some (apn.take MAX_APN_LEN)) w.agpsStatus]
      caller := .idle } s ↔ Comes w s := fun s =>
    comes_queue (by simp) (by simp [here]) (by simp)
  have told_iff : told .enableData (ahead w.log
      (w.msgs ++ [.enableData (some (apn.take MAX_APN_LEN)) w.agpsStatus]) w.built) =
      some (w.msg .enableData) ↔ Fresh w .enableData := told_queue_iff rfl
  constructor
  · intro after
    obtain soon | owed | told := after .enableData enableData_mem_reinit
    · exact .inl ((comes _).mp soon)
    · simp only [Owed] at owed
    · exact .inr (told_iff.mp told)
  · intro careful s mem
    by_cases data : s = .enableData
    · subst data
      obtain soon | fresh := careful
      · exact .inl ((comes _).mpr soon)
      · exact .inr (.inr (told_iff.mpr fresh))
    · obtain soon | owed | told := bound s mem
      · exact .inl ((comes s).mpr soon)
      · simp only [Owed, here] at owed
        exact (data owed).elim
      · refine .inr (.inr (.trans (told_queue_silent fun same => ?_) told))
        exact data (Option.some.inj same).symm

/-- Other messages change nothing but the capabilities. -/
theorem proc_ordinary (w : World) (added : BitVec 32) (noInit : msg ≠ .init) (noUp : msg ≠ .up) :
    ∃ CAPABILITIES, w.proc added msg =
      { w with gps_conf := { w.gps_conf with CAPABILITIES := CAPABILITIES } } := by
  cases msg with
  | init => exact (noInit rfl).elim
  | up => exact (noUp rfl).elim
  | gnssConstellationConfig => exact ⟨_, rfl⟩
  | _ => exact ⟨w.gps_conf.CAPABILITIES, rfl⟩

theorem bound_proc (added : BitVec 32) (first : w.msgs = msg :: msgs)
    (mem : s ∈ reinit w.sap_conf) (bound : Bound w s) :
    Bound (World.proc { w with msgs := msgs, log := w.log ++ [.proc msg] } added msg) s := by
  by_cases isInit : msg = .init
  · subst isInit
    exact .inl (.inr (.inr (.inr (.inr (List.mem_append_left _ mem)))))
  by_cases isUp : msg = .up
  · subst isUp
    exact .inl (.inr (.inr (.inr (.inr mem))))
  obtain ⟨CAPABILITIES, same⟩ :=
    proc_ordinary { w with msgs := msgs, log := w.log ++ [.proc msg] } added isInit isUp
  rw [same]
  obtain soon | owed | told := bound
  · refine .inl ?_
    simpa [Comes, first, Ne.symm isInit, Ne.symm isUp] using soon
  · refine .inr (.inl ?_)
    cases here : w.caller with
    | idle | initialising => simp only [Owed, here] at owed
    | available => simpa only [Owed, here] using owed
    | sending gps_conf_tmp rest =>
        simp only [Owed, here] at owed ⊢
        obtain ⟨p, mem, sent, changed⟩ := owed
        refine ⟨p, mem, sent, ?_⟩
        cases p <;> cases sent <;> exact changed
  · refine .inr (.inr ?_)
    rw [first, ← ahead_proc] at told
    refine told.trans (congrArg some ?_)
    cases s <;> rfl

theorem bound_read {item : Item} {todo : List Item} (free : w.built = none)
    (next : w.todo = item :: todo) (bound : Bound w s) :
    Bound { w with built := some (w.msg item), todo := todo } s := by
  by_cases same : item = s
  · subst same
    have told : told item (ahead w.log w.msgs (some (w.msg item))) = some (w.msg item) :=
      (told_built (w.item_msg item)).trans (congrArg some (w.plain_msg item))
    exact .inr (.inr told)
  · obtain soon | owed | told := bound
    · refine .inl ?_
      simp only [Comes, next, List.mem_cons, Ne.symm same, false_or] at soon ⊢
      exact soon
    · exact .inr (.inl owed)
    · refine .inr (.inr (.trans (told_built_silent ?_) (free ▸ told)))
      rw [w.item_msg item]
      exact fun same' => same (Option.some.inj same')

theorem bound_send (built : w.built = some msg) (bound : Bound w s) :
    Bound { w with msgs := w.msgs ++ [msg], built := none } s := by
  obtain soon | owed | told := bound
  · refine .inl (soon.mono id ?_ (fun _ => List.mem_append_left _) fun _ => id)
    exact Decidable.or_iff_not_imp_left.mpr not_not.mp
  · exact .inr (.inl owed)
  · refine .inr (.inr ?_)
    rw [built, ← ahead_send] at told
    exact told

theorem bound_modemRestart (w : World) (s : Item) :
    Bound { w with
      msgs := if w.adapter then w.msgs ++ [.up] else w.msgs, log := w.log ++ [.restart] } s := by
  refine .inl ?_
  cases set : w.adapter with
  | false => exact .inl rfl
  | true => exact .inr (.inr (.inr (.inl (by simp))))

theorem AllBound.moves (sound : Sound w) (bound : AllBound w) (moves : Moves w l t) :
    AllBound t ↔ Careful w l := by
  cases moves with
  | initAgain => exact iff_of_true bound trivial
  | init => exact iff_of_true (fun _ _ => .inl (.inr (.inl rfl))) trivial
  | sendInit => exact iff_of_true (fun _ _ => .inl (.inr (.inr (.inl (by simp))))) trivial
  | parse config_data idle =>
      exact iff_of_true (fun s mem => bound_parse idle (bound s mem)) trivial
  | sendChange here _ differs => exact allBound_sendChange sound bound here differs
  | skipChange here skips =>
      refine iff_of_true (fun s mem => bound_skipChange here skips (bound s mem)) ?_
      simp only [Careful, CarefulChange, here]
      exact fun s _ differs => .inl (.inl (skips.resolve_right differs))
  | restore here => exact iff_of_true (fun s mem => bound_restore here (bound s mem)) trivial
  | setAvailable available apn idle =>
      exact iff_of_true (fun s mem => bound_setAvailable available apn idle (bound s mem))
        (.inl rfl)
  | storeAvailable available apn idle returns =>
      exact allBound_storeAvailable available bound idle returns
  | sendAvailable here => exact allBound_sendAvailable sound bound here
  | proc added _ _ first =>
      refine iff_of_true (fun s mem => ?_) trivial
      rw [World.proc_sap_conf] at mem
      exact bound_proc added first mem (bound s mem)
  | read free next => exact iff_of_true (fun s mem => bound_read free next (bound s mem)) trivial
  | send built => exact iff_of_true (fun s mem => bound_send built (bound s mem)) trivial
  | modemRestart => exact iff_of_true (fun s _ => bound_modemRestart w s) trivial

/-- With nothing under way, what was bound to reach the modem has reached it. -/
theorem Bound.arrived (bound : Bound w s) (quiet : Quiet w) : told s w.log = some (w.msg s) := by
  obtain ⟨set, idle, empty, free, done⟩ := quiet
  obtain soon | owed | told := bound
  · simp [Comes, set, idle, empty, done] at soon
  · simp only [Owed, idle] at owed
  · simpa [ahead, empty, free] using told

end Steps

/-- From the start of the process, in every order of calls, messages and restarts of the modem:
each value of loc_eng_reinit stays bound to reach the modem exactly if no change is queued while
the worker is about to queue the value from before it, and no availability is changed without an
APN. Then the modem holds the current values whenever nothing is under way. -/
theorem configuration_reaches_modem_iff (initial : IsInit w) {ls : List Label}
    (run : Run step w ls t) :
    (Throughout step AllBound w ls ↔ Meets step Careful w ls) ∧
      (Meets step Careful w ls → Quiet t →
        ∀ s ∈ reinit t.sap_conf, told s t.log = some (t.msg s)) := by
  obtain ⟨unset, idle, -⟩ := initial
  have sound : Sound w := by simp only [Sound, idle]
  have bound : AllBound w := fun _ _ => .inl (.inl unset)
  have throughout := run.throughout_iff_meets (I := Sound) (P := AllBound)
    (fun _ _ _ sound bound h => AllBound.moves sound bound (moves h))
    (fun _ _ _ sound h => sound.moves (moves h)) sound bound
  refine ⟨throughout, fun careful quiet s mem => ?_⟩
  exact (throughout.mpr careful ls [] t (List.append_nil ls).symm run s mem).arrived quiet

section Runs

def bootWorld : World where
  gps_conf := GpsConf.default
  XTRA_VERSION_CHECK := 0
  sap_conf := SapConf.default
  agpsStatus := 0
  adapter := false
  caller := .idle
  msgs := []
  built := none
  todo := []
  log := []

instance (w : World) (s : Item) : Decidable (Comes w s) := by unfold Comes; infer_instance
instance (w : World) (s : Item) : Decidable (Fresh w s) := by unfold Fresh; infer_instance

instance (w : World) : (caller : Caller) → Decidable (CarefulChange w caller)
  | .sending gps_conf_tmp (p :: _) =>
      inferInstanceAs (Decidable (∀ s ∈ sentAs p,
        param gps_conf_tmp p ≠ param w.gps_conf p → Comes w s ∨ Fresh w s))
  | .idle | .initialising | .sending _ [] | .available _ _ => inferInstanceAs (Decidable True)

instance (w : World) (l : Label) : Decidable (Careful w l) := by
  cases l <;> unfold Careful <;> infer_instance

/-- The first reinit, an update to SUPL 2.0, and a restart of the modem. -/
def updateThenRestart : List Label :=
  [.init, .sendInit, .proc 0] ++ (List.replicate 9 [.read, .send]).flatten ++
    List.replicate 9 (.proc 0) ++ [.parse [(.SUPL_VER, 0x20000)]] ++
    List.replicate 4 .sendChange ++ [.restore, .proc 0, .modemRestart, .proc 0] ++
    (List.replicate 8 [.read, .send]).flatten ++ List.replicate 8 (.proc 0)

theorem update_survives_restart :
    ∃ t, Run step bootWorld updateThenRestart t ∧ t.gps_conf.SUPL_VER = 0x20000 ∧ Quiet t ∧
      ∀ s ∈ reinit t.sap_conf, told s t.log = some (t.msg s) := by
  have initial : IsInit bootWorld := ⟨rfl, rfl, rfl, rfl, rfl, rfl⟩
  have careful : Meets step Careful bootWorld updateThenRestart := by decide +kernel
  obtain ⟨t, run, updated, quiet⟩ : ∃ t, Run step bootWorld updateThenRestart t ∧
      t.gps_conf.SUPL_VER = 0x20000 ∧ Quiet t :=
    ⟨_, run_iff_foldlM.mpr rfl, rfl, rfl, rfl, rfl, rfl, rfl⟩
  exact ⟨t, run, updated, quiet, (configuration_reaches_modem_iff initial run).2 careful quiet⟩

/-- Here the worker has read the old version when the update queues the new one. -/
example : ¬ Meets step Careful bootWorld
    [.init, .sendInit, .proc 0, .read, .send, .read, .parse [(.SUPL_VER, 0x20000)],
      .sendChange] := by
  decide +kernel

end Runs
end Msm8974.Reinit
