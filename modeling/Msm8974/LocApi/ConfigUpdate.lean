import Msm8974.Library.Monitors
import Msm8974.Library.Traces

/-!
loc_eng_configuration_update and the worker thread. The caller saves gps_conf, parses the
buffer over it, queues a message for each value that changed and puts the old configuration
back but for four values. SUPL_MODE is not one of these, and its message reads gps_conf when
the worker gets to it.
-/

namespace Msm8974.ConfigUpdate
open Msm8974.Runs Msm8974.Traces

/-- The values of gps_conf that an update looks at or keeps. -/
structure GpsConf where
  SUPL_VER : BitVec 32
  SUPL_MODE : BitVec 32
  CAPABILITIES : BitVec 32
  LPP_PROFILE : BitVec 32
  GPS_LOCK : BitVec 32
  A_GLONASS_POS_PROTOCOL_SELECT : BitVec 32
  deriving DecidableEq, Repr

/-- loc_default_parameters. -/
def GpsConf.default : GpsConf where
  SUPL_VER := 0x10000
  SUPL_MODE := 0x3
  CAPABILITIES := 0x7
  LPP_PROFILE := 0
  GPS_LOCK := 0
  A_GLONASS_POS_PROTOCOL_SELECT := 0

/-- The names of gps_conf_table for them. -/
inductive ConfParam
  | GPS_LOCK | SUPL_VER | LPP_PROFILE | A_GLONASS_POS_PROTOCOL_SELECT | SUPL_MODE | CAPABILITIES
  deriving DecidableEq, Repr

namespace GpsConf

def set (conf : GpsConf) (value : BitVec 32) : ConfParam → GpsConf
  | .GPS_LOCK => { conf with GPS_LOCK := value }
  | .SUPL_VER => { conf with SUPL_VER := value }
  | .LPP_PROFILE => { conf with LPP_PROFILE := value }
  | .A_GLONASS_POS_PROTOCOL_SELECT => { conf with A_GLONASS_POS_PROTOCOL_SELECT := value }
  | .SUPL_MODE => { conf with SUPL_MODE := value }
  | .CAPABILITIES => { conf with CAPABILITIES := value }

/-- UTIL_UPDATE_CONF over a buffer with these lines. -/
def update (conf : GpsConf) (config_data : List (ConfParam × BitVec 32)) : GpsConf :=
  config_data.foldl (fun conf line => conf.set line.2 line.1) conf

end GpsConf

def carrierMSA : BitVec 32 := 0x2
def carrierMSB : BitVec 32 := 0x1
def gpsConfMSA : BitVec 32 := 0x4
def gpsConfMSB : BitVec 32 := 0x2

def getCarrierCapabilities (CAPABILITIES SUPL_MODE : BitVec 32) : BitVec 32 :=
  let capabilities := CAPABILITIES
  let capabilities :=
    if SUPL_MODE &&& carrierMSA ≠ carrierMSA then capabilities &&& ~~~gpsConfMSA else capabilities
  if SUPL_MODE &&& carrierMSB ≠ carrierMSB then capabilities &&& ~~~gpsConfMSB else capabilities

/-- Which update a LocEngSuplMode is for: the CAPABILITIES before it and the SUPL_MODE in its
buffer. The message itself carries neither. -/
structure SuplModeUpdate where
  CAPABILITIES : BitVec 32
  SUPL_MODE : BitVec 32
  deriving DecidableEq, Repr

inductive LocMsg
  | suplVer (mSuplVer : BitVec 32)
  | lppConfig (mLppConfig : BitVec 32)
  | aGlonassProtocol (mAGlonassProtocl : BitVec 32)
  | suplMode (update : SuplModeUpdate)
  deriving DecidableEq, Repr

inductive AdapterCall
  | setSUPLVersion (version : BitVec 32)
  | setLPPConfig (profile : BitVec 32)
  | setAGLONASSProtocol (aGlonassProtocol : BitVec 32)
  | setCapabilities (capabilities : BitVec 32)
  deriving DecidableEq, Repr

/-- Where the calling thread is in loc_eng_configuration_update. -/
inductive Caller
  | idle
  | parsed (gps_conf_tmp : GpsConf)
  | queued (gps_conf_tmp : GpsConf)
  deriving DecidableEq, Repr

structure World where
  gps_conf : GpsConf
  adapter : Bool
  caller : Caller
  msgs : List LocMsg
  log : List AdapterCall

/-- The messages for the values that the buffer changed. -/
def changes (gps_conf_tmp gps_conf : GpsConf) : List LocMsg :=
  (if gps_conf_tmp.SUPL_VER ≠ gps_conf.SUPL_VER then [.suplVer gps_conf.SUPL_VER] else []) ++
  (if gps_conf_tmp.LPP_PROFILE ≠ gps_conf.LPP_PROFILE then
    [.lppConfig gps_conf.LPP_PROFILE] else []) ++
  (if gps_conf_tmp.A_GLONASS_POS_PROTOCOL_SELECT ≠ gps_conf.A_GLONASS_POS_PROTOCOL_SELECT then
    [.aGlonassProtocol gps_conf.A_GLONASS_POS_PROTOCOL_SELECT] else []) ++
  if gps_conf_tmp.SUPL_MODE ≠ gps_conf.SUPL_MODE then
    [.suplMode ⟨gps_conf_tmp.CAPABILITIES, gps_conf.SUPL_MODE⟩] else []

/-- What an update puts back. -/
def restored (gps_conf_tmp gps_conf : GpsConf) : GpsConf :=
  { gps_conf_tmp with
    SUPL_VER := gps_conf.SUPL_VER
    LPP_PROFILE := gps_conf.LPP_PROFILE
    A_GLONASS_POS_PROTOCOL_SELECT := gps_conf.A_GLONASS_POS_PROTOCOL_SELECT
    GPS_LOCK := gps_conf.GPS_LOCK }

def LocMsg.proc (gps_conf : GpsConf) : LocMsg → AdapterCall
  | .suplVer mSuplVer => .setSUPLVersion mSuplVer
  | .lppConfig mLppConfig => .setLPPConfig mLppConfig
  | .aGlonassProtocol mAGlonassProtocl => .setAGLONASSProtocol mAGlonassProtocl
  | .suplMode _ =>
      .setCapabilities (getCarrierCapabilities gps_conf.CAPABILITIES gps_conf.SUPL_MODE)

/-- The three steps of the calling thread and the one of the worker. -/
inductive Label
  | parse (config_data : List (ConfParam × BitVec 32))
  | sendMsgs
  | restore
  | proc
  deriving DecidableEq

def step (w : World) : Label → Option World
  | .parse config_data =>
      match w.caller with
      | .idle =>
          some { w with gps_conf := w.gps_conf.update config_data, caller := .parsed w.gps_conf }
      | .parsed _ | .queued _ => none
  | .sendMsgs =>
      match w.caller with
      | .parsed gps_conf_tmp =>
          some { w with
            msgs := if w.adapter then w.msgs ++ changes gps_conf_tmp w.gps_conf else w.msgs
            caller := .queued gps_conf_tmp }
      | .idle | .queued _ => none
  | .restore =>
      match w.caller with
      | .queued gps_conf_tmp =>
          some { w with gps_conf := restored gps_conf_tmp w.gps_conf, caller := .idle }
      | .idle | .parsed _ => none
  | .proc =>
      match w.msgs with
      | [] => none
      | msg :: msgs => some { w with msgs := msgs, log := w.log ++ [msg.proc w.gps_conf] }

/-- Before the first update. -/
structure IsInit (w : World) : Prop where
  caller : w.caller = .idle
  msgs : w.msgs = []

/-- The update whose LocEngSuplMode is next. -/
def World.nextSuplMode (w : World) : Option SuplModeUpdate :=
  match w.msgs with
  | .suplMode update :: _ => some update
  | _ => none

/-- The mask that is passed on for an update is the one its SUPL_MODE gives. -/
def TakesEffect (w : World) (l : Label) (t : World) : Prop :=
  l = .proc → ∀ update ∈ w.nextSuplMode, newEvents w.log t.log =
    [.setCapabilities (getCarrierCapabilities update.CAPABILITIES update.SUPL_MODE)]

/-- The two modes agree on the capabilities they govern. -/
def SameModes (CAPABILITIES SUPL_MODE SUPL_MODE' : BitVec 32) : Prop :=
  (CAPABILITIES &&& gpsConfMSA = gpsConfMSA →
    (SUPL_MODE &&& carrierMSA = carrierMSA ↔ SUPL_MODE' &&& carrierMSA = carrierMSA)) ∧
  (CAPABILITIES &&& gpsConfMSB = gpsConfMSB →
    (SUPL_MODE &&& carrierMSB = carrierMSB ↔ SUPL_MODE' &&& carrierMSB = carrierMSB))

/-- The configuration agrees with the update: bit by bit where SUPL_MODE has no say, and in
whether MSA and MSB are both there and allowed. -/
def Agrees (conf : GpsConf) (update : SuplModeUpdate) : Prop :=
  conf.CAPABILITIES &&& ~~~(gpsConfMSA ||| gpsConfMSB) =
    update.CAPABILITIES &&& ~~~(gpsConfMSA ||| gpsConfMSB) ∧
  (conf.CAPABILITIES &&& gpsConfMSA = gpsConfMSA ∧ conf.SUPL_MODE &&& carrierMSA = carrierMSA ↔
    update.CAPABILITIES &&& gpsConfMSA = gpsConfMSA ∧
      update.SUPL_MODE &&& carrierMSA = carrierMSA) ∧
  (conf.CAPABILITIES &&& gpsConfMSB = gpsConfMSB ∧ conf.SUPL_MODE &&& carrierMSB = carrierMSB ↔
    update.CAPABILITIES &&& gpsConfMSB = gpsConfMSB ∧
      update.SUPL_MODE &&& carrierMSB = carrierMSB)

instance (CAPABILITIES SUPL_MODE SUPL_MODE' : BitVec 32) :
    Decidable (SameModes CAPABILITIES SUPL_MODE SUPL_MODE') := inferInstanceAs (Decidable (_ ∧ _))

instance (conf : GpsConf) (update : SuplModeUpdate) : Decidable (Agrees conf update) :=
  inferInstanceAs (Decidable (_ ∧ _))

/-- The CAPABILITIES of a buffer differ from those before it at most in what the mode rules out. -/
def KeepsCapabilities (before given SUPL_MODE : BitVec 32) : Prop :=
  given &&& ~~~(gpsConfMSA ||| gpsConfMSB) = before &&& ~~~(gpsConfMSA ||| gpsConfMSB) ∧
  (SUPL_MODE &&& carrierMSA = carrierMSA →
    (given &&& gpsConfMSA = gpsConfMSA ↔ before &&& gpsConfMSA = gpsConfMSA)) ∧
  (SUPL_MODE &&& carrierMSB = carrierMSB →
    (given &&& gpsConfMSB = gpsConfMSB ↔ before &&& gpsConfMSB = gpsConfMSB))

instance (before given SUPL_MODE : BitVec 32) :
    Decidable (KeepsCapabilities before given SUPL_MODE) := inferInstanceAs (Decidable (_ ∧ _))

/-- The buffer of the latest update, and how many LocEngSuplMode messages of earlier updates are
still queued behind it. -/
structure Updates where
  config_data : List (ConfParam × BitVec 32)
  earlier : Nat

def LocMsg.update : LocMsg → Option SuplModeUpdate
  | .suplMode update => some update
  | .suplVer _ | .lppConfig _ | .aGlonassProtocol _ => none

def World.suplModes (w : World) : List SuplModeUpdate := w.msgs.filterMap LocMsg.update

def noteUpdate (w : World) (l : Label) (_ : World) (h : Updates) : Updates :=
  match l with
  | .parse config_data => ⟨config_data, w.suplModes.length⟩
  | .proc => if w.nextSuplMode.isSome then { h with earlier := h.earlier - 1 } else h
  | .sendMsgs | .restore => h

/-- When a LocEngSuplMode may be processed, `conf` being the configuration before the first
update. -/
def InTimeAt (conf : GpsConf) (h : Updates) (update : SuplModeUpdate) : Caller → Prop
  -- the old mode is back in force
  | .idle => SameModes conf.CAPABILITIES conf.SUPL_MODE update.SUPL_MODE
  | .parsed _ | .queued _ =>
      if h.earlier = 0 then
        KeepsCapabilities conf.CAPABILITIES (conf.update h.config_data).CAPABILITIES
          update.SUPL_MODE
      else
        -- a later update is under way, and what it gives is in force
        Agrees (conf.update h.config_data) update

instance (conf : GpsConf) (h : Updates) (update : SuplModeUpdate) :
    (caller : Caller) → Decidable (InTimeAt conf h update caller)
  | .idle => inferInstanceAs (Decidable (SameModes _ _ _))
  | .parsed _ | .queued _ =>
      inferInstanceAs (Decidable (if h.earlier = 0 then KeepsCapabilities _ _ _ else Agrees _ _))

/-- Every LocEngSuplMode is processed within its own update, which leaves the capabilities alone,
or where the mode in force asks for the same capabilities. -/
def InTime (conf : GpsConf) (p : World × Updates) (l : Label) : Prop :=
  l = .proc → ∀ update ∈ p.1.nextSuplMode, InTimeAt conf p.2 update p.1.caller

instance (conf : GpsConf) (p : World × Updates) (l : Label) : Decidable (InTime conf p l) :=
  inferInstanceAs (Decidable (_ → ∀ update ∈ p.1.nextSuplMode, _))

section Bits
variable {CAPABILITIES SUPL_MODE CAPABILITIES' SUPL_MODE' : BitVec 32}

theorem and_twoPow_eq_iff (mask : BitVec 32) {i : Nat} (small : i < 32) :
    mask &&& BitVec.twoPow 32 i = BitVec.twoPow 32 i ↔ mask.getLsbD i = true := by
  rw [BitVec.and_twoPow]
  cases mask.getLsbD i with
  | false =>
      refine iff_of_false (fun same => ?_) Bool.false_ne_true
      have bit := congrArg (·.getLsbD i) same
      simp [small] at bit
  | true => exact iff_of_true rfl rfl

theorem carrierMSA_iff : SUPL_MODE &&& carrierMSA = carrierMSA ↔ SUPL_MODE.getLsbD 1 = true :=
  and_twoPow_eq_iff SUPL_MODE (i := 1) (by decide)

theorem carrierMSB_iff : SUPL_MODE &&& carrierMSB = carrierMSB ↔ SUPL_MODE.getLsbD 0 = true :=
  and_twoPow_eq_iff SUPL_MODE (i := 0) (by decide)

theorem gpsConfMSA_iff :
    CAPABILITIES &&& gpsConfMSA = gpsConfMSA ↔ CAPABILITIES.getLsbD 2 = true :=
  and_twoPow_eq_iff CAPABILITIES (i := 2) (by decide)

theorem gpsConfMSB_iff :
    CAPABILITIES &&& gpsConfMSB = gpsConfMSB ↔ CAPABILITIES.getLsbD 1 = true :=
  and_twoPow_eq_iff CAPABILITIES (i := 1) (by decide)

theorem getLsbD_and_not_twoPow (mask : BitVec 32) (i j : Nat) :
    (mask &&& ~~~BitVec.twoPow 32 i).getLsbD j = (mask.getLsbD j && decide (i ≠ j)) := by
  by_cases small : j < 32
  · rw [BitVec.getLsbD_and, BitVec.getLsbD_not, BitVec.getLsbD_twoPow]
    by_cases same : i = j
    · subst same
      simp [small]
    · simp [small, same]
  · have high : ∀ x : BitVec 32, x.getLsbD j = false := fun x =>
      BitVec.getLsbD_of_ge x j (Nat.le_of_not_lt small)
    rw [high, high, Bool.false_and]

/-- The capabilities of the carrier, bit by bit. -/
theorem getLsbD_carrierCapabilities (i : Nat) :
    (getCarrierCapabilities CAPABILITIES SUPL_MODE).getLsbD i =
      ((CAPABILITIES.getLsbD i && (decide (2 ≠ i) || SUPL_MODE.getLsbD 1)) &&
        (decide (1 ≠ i) || SUPL_MODE.getLsbD 0)) := by
  have msa : gpsConfMSA = BitVec.twoPow 32 2 := rfl
  have msb : gpsConfMSB = BitVec.twoPow 32 1 := rfl
  simp only [getCarrierCapabilities, ne_eq, carrierMSA_iff, carrierMSB_iff, msa, msb]
  cases SUPL_MODE.getLsbD 1 <;> cases SUPL_MODE.getLsbD 0 <;>
    simp only [Bool.false_eq_true, not_false_eq_true, not_true_eq_false, if_true, if_false,
      getLsbD_and_not_twoPow, ne_eq, Bool.or_false, Bool.or_true, Bool.and_true]

/-- The bits that SUPL_MODE has no say in. -/
theorem getLsbD_ungoverned (i : Nat) :
    (CAPABILITIES &&& ~~~(gpsConfMSA ||| gpsConfMSB)).getLsbD i =
      ((CAPABILITIES.getLsbD i && decide (2 ≠ i)) && decide (1 ≠ i)) := by
  have split : CAPABILITIES &&& ~~~(gpsConfMSA ||| gpsConfMSB) =
      (CAPABILITIES &&& ~~~BitVec.twoPow 32 2) &&& ~~~BitVec.twoPow 32 1 := by
    rw [BitVec.not_or, ← BitVec.and_assoc]
    rfl
  rw [split, getLsbD_and_not_twoPow, getLsbD_and_not_twoPow]

/-- Two configurations give the carrier the same capabilities exactly if they agree. -/
theorem carrierCapabilities_eq_iff (conf : GpsConf) (update : SuplModeUpdate) :
    getCarrierCapabilities conf.CAPABILITIES conf.SUPL_MODE =
      getCarrierCapabilities update.CAPABILITIES update.SUPL_MODE ↔ Agrees conf update := by
  rw [Agrees, gpsConfMSA_iff, gpsConfMSA_iff, gpsConfMSB_iff, gpsConfMSB_iff, carrierMSA_iff,
    carrierMSA_iff, carrierMSB_iff, carrierMSB_iff]
  constructor
  · intro same
    have bit : ∀ i, _ = _ := fun i => congrArg (·.getLsbD i) same
    simp only [getLsbD_carrierCapabilities] at bit
    refine ⟨BitVec.eq_of_getLsbD_eq fun i _ => ?_, ?_, ?_⟩
    · rw [getLsbD_ungoverned, getLsbD_ungoverned]
      have at_i := bit i
      by_cases two : 2 = i
      · simp [two]
      · by_cases one : 1 = i
        · simp [one]
        · simpa [two, one] using at_i
    · have at_two : (conf.CAPABILITIES.getLsbD 2 && conf.SUPL_MODE.getLsbD 1) =
          (update.CAPABILITIES.getLsbD 2 && update.SUPL_MODE.getLsbD 1) := by simpa using bit 2
      rw [← Bool.and_eq_true, ← Bool.and_eq_true, at_two]
    · have at_one : (conf.CAPABILITIES.getLsbD 1 && conf.SUPL_MODE.getLsbD 0) =
          (update.CAPABILITIES.getLsbD 1 && update.SUPL_MODE.getLsbD 0) := by simpa using bit 1
      rw [← Bool.and_eq_true, ← Bool.and_eq_true, at_one]
  · intro ⟨rest, msa, msb⟩
    rw [← Bool.and_eq_true, ← Bool.and_eq_true, ← Bool.eq_iff_iff] at msa msb
    refine BitVec.eq_of_getLsbD_eq fun i _ => ?_
    rw [getLsbD_carrierCapabilities, getLsbD_carrierCapabilities]
    by_cases two : 2 = i
    · subst two
      simpa using msa
    · by_cases one : 1 = i
      · subst one
        simpa using msb
      · have at_i := congrArg (·.getLsbD i) rest
        simp only [getLsbD_ungoverned] at at_i
        simpa [two, one] using at_i

theorem agrees_iff_keepsCapabilities {conf : GpsConf} {update : SuplModeUpdate}
    (same : update.SUPL_MODE = conf.SUPL_MODE) : Agrees conf update ↔
      KeepsCapabilities update.CAPABILITIES conf.CAPABILITIES update.SUPL_MODE := by
  rw [Agrees, KeepsCapabilities, same]
  exact and_congr Iff.rfl (and_congr and_congr_left_iff and_congr_left_iff)

/-- Between two updates CAPABILITIES is what it was, and only the modes can differ. -/
theorem agrees_iff_sameModes {conf : GpsConf} {update : SuplModeUpdate}
    (same : conf.CAPABILITIES = update.CAPABILITIES) :
    Agrees conf update ↔ SameModes update.CAPABILITIES conf.SUPL_MODE update.SUPL_MODE := by
  rw [Agrees, SameModes, same, and_iff_right rfl]
  exact and_congr and_congr_right_iff and_congr_right_iff

end Bits

/-- The two values that every update puts back. -/
def SameValues (conf conf' : GpsConf) : Prop :=
  conf.CAPABILITIES = conf'.CAPABILITIES ∧ conf.SUPL_MODE = conf'.SUPL_MODE

theorem SameValues.update {conf conf' : GpsConf} (same : SameValues conf conf')
    (config_data : List (ConfParam × BitVec 32)) :
    SameValues (conf.update config_data) (conf'.update config_data) := by
  induction config_data generalizing conf conf' with
  | nil => exact same
  | cons line rest ih =>
      obtain ⟨name, value⟩ := line
      obtain ⟨capabilities, mode⟩ := same
      have next : SameValues (conf.set value name) (conf'.set value name) := by
        cases name with
        | SUPL_MODE => exact ⟨capabilities, rfl⟩
        | CAPABILITIES => exact ⟨rfl, mode⟩
        | _ => exact ⟨capabilities, mode⟩
      exact ih next

theorem SameValues.agrees_iff {conf conf' : GpsConf} (same : SameValues conf conf')
    (update : SuplModeUpdate) : Agrees conf update ↔ Agrees conf' update := by
  rw [Agrees, Agrees, same.1, same.2]

/-- What is in force while the caller is where it is; the messages behind the earlier ones are
those of the update under way. -/
def InForce (conf : GpsConf) (w : World) (h : Updates) : Caller → Prop
  | .idle => SameValues w.gps_conf conf
  | .parsed tmp => SameValues tmp conf ∧ w.gps_conf = tmp.update h.config_data ∧
      w.suplModes.length ≤ h.earlier
  | .queued tmp => SameValues tmp conf ∧ w.gps_conf = tmp.update h.config_data ∧
      ∀ update ∈ w.suplModes.drop h.earlier, update.SUPL_MODE = w.gps_conf.SUPL_MODE

structure Tracked (conf : GpsConf) (p : World × Updates) : Prop where
  capabilities : ∀ update ∈ p.1.suplModes, update.CAPABILITIES = conf.CAPABILITIES
  inForce : InForce conf p.1 p.2 p.1.caller

theorem mem_changes {gps_conf_tmp gps_conf : GpsConf} {update : SuplModeUpdate}
    (sent : update ∈ (changes gps_conf_tmp gps_conf).filterMap LocMsg.update) :
    update = ⟨gps_conf_tmp.CAPABILITIES, gps_conf.SUPL_MODE⟩ := by
  obtain ⟨msg, sent, shape⟩ := List.mem_filterMap.mp sent
  simp only [changes, List.mem_append] at sent
  obtain ((ver | profile) | glonass) | mode := sent
  · split at ver <;> simp_all [LocMsg.update]
  · split at profile <;> simp_all [LocMsg.update]
  · split at glonass <;> simp_all [LocMsg.update]
  · split at mode
    · rw [List.mem_singleton.mp mode] at shape
      exact (Option.some.inj shape).symm
    · cases mode

/-- What each label does. -/
theorem step_cases {w t : World} {l : Label} (taken : step w l = some t) :
    (∃ config_data, l = .parse config_data ∧ w.caller = .idle ∧ t = { w with
      gps_conf := w.gps_conf.update config_data, caller := .parsed w.gps_conf }) ∨
    (∃ tmp, l = .sendMsgs ∧ w.caller = .parsed tmp ∧ t = { w with
      msgs := if w.adapter then w.msgs ++ changes tmp w.gps_conf else w.msgs
      caller := .queued tmp }) ∨
    (∃ tmp, l = .restore ∧ w.caller = .queued tmp ∧ t = { w with
      gps_conf := restored tmp w.gps_conf, caller := .idle }) ∨
    (∃ msg msgs, l = .proc ∧ w.msgs = msg :: msgs ∧ t = { w with
      msgs := msgs, log := w.log ++ [msg.proc w.gps_conf] }) := by
  cases l with
  | parse config_data =>
      simp only [step] at taken
      split at taken
      · rename_i idle
        exact .inl ⟨config_data, rfl, idle, (Option.some.inj taken).symm⟩
      · cases taken
      · cases taken
  | sendMsgs =>
      simp only [step] at taken
      split at taken
      · rename_i tmp parsed
        exact .inr (.inl ⟨tmp, rfl, parsed, (Option.some.inj taken).symm⟩)
      · cases taken
      · cases taken
  | restore =>
      simp only [step] at taken
      split at taken
      · rename_i tmp queued
        exact .inr (.inr (.inl ⟨tmp, rfl, queued, (Option.some.inj taken).symm⟩))
      · cases taken
      · cases taken
  | proc =>
      simp only [step] at taken
      split at taken
      · cases taken
      · rename_i msg msgs queue
        exact .inr (.inr (.inr ⟨msg, msgs, rfl, queue, (Option.some.inj taken).symm⟩))

theorem suplModes_eq {w : World} {msg : LocMsg} {msgs : List LocMsg} (queue : w.msgs = msg :: msgs) :
    w.suplModes = w.nextSuplMode.toList ++ msgs.filterMap LocMsg.update := by
  rw [World.suplModes, World.nextSuplMode, queue]
  cases msg with
  | suplMode update => rfl
  | suplVer | lppConfig | aGlonassProtocol => rfl

/-- The messages that an update sends are its own, and they go behind the earlier ones. -/
theorem tracked_sendMsgs {conf tmp : GpsConf} {w : World} {h : Updates}
    (tracked : Tracked conf (w, h)) (parsed : w.caller = .parsed tmp) :
    Tracked conf ({ w with
      msgs := if w.adapter then w.msgs ++ changes tmp w.gps_conf else w.msgs
      caller := .queued tmp }, h) := by
  obtain ⟨capabilities, inForce⟩ := tracked
  rw [parsed] at inForce
  obtain ⟨same, given, earlier⟩ := inForce
  have queued : World.suplModes { w with
      msgs := if w.adapter then w.msgs ++ changes tmp w.gps_conf else w.msgs
      caller := .queued tmp } = w.suplModes ++
        if w.adapter then (changes tmp w.gps_conf).filterMap LocMsg.update else [] := by
    rw [World.suplModes]
    split
    · exact List.filterMap_append
    · exact (List.append_nil _).symm
  have new : ∀ update ∈
      (if w.adapter then (changes tmp w.gps_conf).filterMap LocMsg.update else []),
      update = ⟨tmp.CAPABILITIES, w.gps_conf.SUPL_MODE⟩ := by
    intro update sent
    split at sent
    · exact mem_changes sent
    · cases sent
  refine ⟨fun update mem => ?_, same, given, fun update mem => ?_⟩
  · rw [queued] at mem
    obtain old | sent := List.mem_append.mp mem
    · exact capabilities update old
    · exact (congrArg (·.CAPABILITIES) (new update sent)).trans same.1
  · rw [queued, List.drop_append] at mem
    have gone : w.suplModes.drop h.earlier = [] := List.drop_eq_nil_of_le earlier
    obtain old | sent := List.mem_append.mp mem
    · cases (gone ▸ old : update ∈ [])
    · exact congrArg (·.SUPL_MODE) (new update (List.mem_of_mem_drop sent))

/-- The worker takes the messages of the earlier updates first. -/
theorem tracked_proc {conf : GpsConf} {w : World} {h : Updates} (tracked : Tracked conf (w, h))
    {msg : LocMsg} {msgs : List LocMsg} (queue : w.msgs = msg :: msgs) (log : List AdapterCall) :
    Tracked conf ({ w with msgs, log },
      ⟨h.config_data, h.earlier - w.nextSuplMode.toList.length⟩) := by
  obtain ⟨capabilities, inForce⟩ := tracked
  have before := suplModes_eq queue
  have drop : (msgs.filterMap LocMsg.update).drop (h.earlier - w.nextSuplMode.toList.length) ⊆
      w.suplModes.drop h.earlier := by
    rw [before, List.drop_append]
    exact List.subset_append_right _ _
  refine ⟨fun update mem => capabilities update (before ▸ List.mem_append_right _ mem), ?_⟩
  cases caller : w.caller with
  | idle =>
      rw [caller] at inForce
      exact inForce
  | parsed tmp =>
      rw [caller] at inForce
      obtain ⟨same, given, earlier⟩ := inForce
      refine ⟨same, given, ?_⟩
      rw [before, List.length_append] at earlier
      exact Nat.le_sub_of_add_le' earlier
  | queued tmp =>
      rw [caller] at inForce
      obtain ⟨same, given, own⟩ := inForce
      exact ⟨same, given, fun update mem => own update (drop mem)⟩

theorem tracked_step {conf : GpsConf} {w t : World} {h : Updates} (tracked : Tracked conf (w, h))
    {l : Label} (taken : step w l = some t) : Tracked conf (t, noteUpdate w l t h) := by
  have inForce := tracked.inForce
  obtain ⟨config_data, rfl, idle, rfl⟩ | ⟨tmp, rfl, parsed, rfl⟩ | ⟨tmp, rfl, queued, rfl⟩ |
    ⟨msg, msgs, rfl, queue, rfl⟩ := step_cases taken
  · rw [idle] at inForce
    exact ⟨tracked.capabilities, inForce, rfl, Nat.le_refl _⟩
  · exact tracked_sendMsgs tracked parsed
  · rw [queued] at inForce
    exact ⟨tracked.capabilities, inForce.1⟩
  · have rest : noteUpdate w .proc { w with msgs, log := w.log ++ [msg.proc w.gps_conf] } h =
        ⟨h.config_data, h.earlier - w.nextSuplMode.toList.length⟩ := by
      cases next : w.nextSuplMode with
      | none => simp [noteUpdate, next]
      | some update => simp [noteUpdate, next]
    rw [rest]
    exact tracked_proc tracked queue _

/-- Where the configuration in force comes from. -/
theorem inTimeAt_iff {conf : GpsConf} {w : World} {h : Updates} (tracked : Tracked conf (w, h))
    {update : SuplModeUpdate} (next : update ∈ w.suplModes) :
    InTimeAt conf h update w.caller ↔ Agrees w.gps_conf update := by
  have capabilities := tracked.capabilities update next
  have within {tmp : GpsConf} (same : SameValues tmp conf)
      (given : w.gps_conf = tmp.update h.config_data)
      (own : h.earlier = 0 → update.SUPL_MODE = w.gps_conf.SUPL_MODE) :
      (if h.earlier = 0 then
        KeepsCapabilities conf.CAPABILITIES (conf.update h.config_data).CAPABILITIES
          update.SUPL_MODE
      else Agrees (conf.update h.config_data) update) ↔ Agrees w.gps_conf update := by
    have values := same.update h.config_data
    rw [← given] at values
    rw [values.agrees_iff update]
    split
    · next first =>
      rw [agrees_iff_keepsCapabilities ((own first).trans values.2), capabilities]
    · exact Iff.rfl
  have inForce := tracked.inForce
  cases caller : w.caller with
  | idle =>
      rw [caller] at inForce
      obtain ⟨same, mode⟩ := inForce
      rw [agrees_iff_sameModes (same.trans capabilities.symm), capabilities, mode]
      exact Iff.rfl
  | parsed tmp =>
      rw [caller] at inForce
      obtain ⟨same, given, earlier⟩ := inForce
      refine within same given fun none => ?_
      rw [none, Nat.le_zero, List.length_eq_zero_iff] at earlier
      simp [earlier] at next
  | queued tmp =>
      rw [caller] at inForce
      obtain ⟨same, given, own⟩ := inForce
      refine within same given fun none => own update ?_
      rwa [none]

theorem takesEffect_iff {conf : GpsConf} {w t : World} {h : Updates}
    (tracked : Tracked conf (w, h)) {l : Label} (taken : step w l = some t) :
    TakesEffect w l t ↔ InTime conf (w, h) l := by
  obtain ⟨config_data, rfl, -, -⟩ | ⟨tmp, rfl, -, -⟩ | ⟨tmp, rfl, -, -⟩ |
    ⟨msg, msgs, rfl, queue, rfl⟩ := step_cases taken
  · exact iff_of_true Label.noConfusion Label.noConfusion
  · exact iff_of_true Label.noConfusion Label.noConfusion
  · exact iff_of_true Label.noConfusion Label.noConfusion
  · refine forall_congr' fun _ => forall₂_congr fun update next => ?_
    obtain rfl : msg = .suplMode update := by
      cases msg with
      | suplMode update' => simp_all [World.nextSuplMode]
      | suplVer | lppConfig | aGlonassProtocol => simp [World.nextSuplMode, queue] at next
    have listed : update ∈ w.suplModes := by
      rw [suplModes_eq queue]
      exact List.mem_append_left _ (Option.mem_toList.mpr next)
    rw [inTimeAt_iff tracked listed, ← carrierCapabilities_eq_iff, newEvents_concat,
      List.singleton_inj, LocMsg.proc, AdapterCall.setCapabilities.injEq]

/-- Each LocEngSuplMode of a run passes on the mask that its update asked for exactly if it is
processed in time. -/
theorem supl_mode_takes_effect_iff {w t : World} (init : IsInit w) {ls : List Label}
    (run : Run step w ls t) : EachStep step TakesEffect w ls ↔
      Meets (monitored step noteUpdate) (InTime w.gps_conf) (w, ⟨[], 0⟩) ls := by
  obtain ⟨h, run'⟩ : ∃ h, Run (monitored step noteUpdate) (w, ⟨[], 0⟩) ls (t, h) :=
    run.exists_monitored _
  rw [← eachStep_monitored]
  refine run'.eachStep_iff_meets_of_invariant (I := Tracked w.gps_conf) ?_ ?_ ⟨?_, ?_⟩
  · intro p l q tracked taken
    exact takesEffect_iff tracked (monitored_iff.mp taken).1
  · intro p l q tracked _ taken
    obtain ⟨taken, noted⟩ := monitored_iff.mp taken
    have kept := tracked_step tracked taken
    rwa [← noted] at kept
  · simp [World.suplModes, init.msgs]
  · rw [init.caller]
    exact ⟨rfl, rfl⟩

section Runs

def initial : World := ⟨.default, true, .idle, [], []⟩

/-- The worker is done with the message before the old configuration is back. -/
theorem supl_mode_processed_at_once_takes_effect :
    EachStep step TakesEffect initial
      [.parse [(.SUPL_MODE, 1)], .sendMsgs, .proc, .restore] :=
  (supl_mode_takes_effect_iff ⟨rfl, rfl⟩ (run_iff_foldlM.mpr rfl)).mpr (by decide)

/-- The worker gets to the message when the old configuration is back. -/
theorem supl_mode_processed_late_is_lost :
    IsInit initial ∧ ¬ EachStep step TakesEffect initial
      [.parse [(.SUPL_MODE, 1)], .sendMsgs, .restore, .proc] := by
  refine ⟨⟨rfl, rfl⟩, fun all => ?_⟩
  have effect := all [_, _, _] .proc [] _ _ rfl (.cons rfl (.cons rfl (.cons rfl (.nil _)))) rfl
    rfl ⟨0x7, 1⟩ rfl
  exact absurd effect (by decide)

end Runs

end Msm8974.ConfigUpdate
