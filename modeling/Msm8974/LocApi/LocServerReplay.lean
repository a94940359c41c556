import Msm8974.Library.Monitors
import Msm8974.Library.Traces
import Msm8974.LocApi.LocServer

/-!
When a server setting survives loc_eng_agps_init and a modem restart. Both send again what the
address buffers hold, so a setting is lost exactly if loc_eng_init cleared its buffer after it
was made, or if the buffer holds only a part of its host name.
-/

namespace Msm8974.LocServer
open Msm8974.Runs LocEngData
open Msm8974.Agps (GPS_CAPABILITY_MSA GPS_CAPABILITY_MSB)

/-- A server as it was set, and whether that was after loc_eng_init. -/
structure Setting where
  hostname : CString
  port : Port
  afterInit : Bool
  deriving DecidableEq

abbrev Settings := LocServerType → Option Setting

/-- The setting made last of each type. -/
def noteSetting (s : LocEngData) (l : Label) (_ : LocEngData) (settings : Settings) : Settings :=
  match l with
  | .setServerProxy type hostname port =>
      Function.update settings type (some ⟨hostname, port, s.adapter⟩)
  | _ => settings

/-- The types that have an address buffer. -/
def LocServerType.Buffered (type : LocServerType) : Prop := type = .supl ∨ type = .cdmaPde

instance (type : LocServerType) : Decidable type.Buffered := inferInstanceAs (Decidable (_ ∨ _))

namespace LocEngData

def buf (s : LocEngData) : LocServerType → AddressBuf
  | .supl => s.supl
  | .cdmaPde => s.c2k
  | .customPde | .mpc => .zero

/-- The last message of the type that was sent to the adapter. -/
def lastSent (type : LocServerType) (s : LocEngData) : Option ServerMsg :=
  (s.msgs.filter (·.type = type)).getLast?

theorem lastSent_sendMsg (type : LocServerType) (msg : ServerMsg) (s : LocEngData) :
    (s.sendMsg msg).lastSent type = if msg.type = type then some msg else s.lastSent type := by
  by_cases same : msg.type = type
  · simp [lastSent, sendMsg, same]
  · simp [lastSent, sendMsg, same]

end LocEngData

variable (addr : CString → Ipv4)

/-- Every name resolves. -/
def resolved (hostname : CString) : Option Ipv4 := some (addr hostname)

/-- What loc_eng_set_server sends for a server. -/
def serverMsg (type : LocServerType) (hostname : CString) (port : Port) : ServerMsg :=
  match type with
  | .supl => .setServerUrl (serverUrl hostname port).1
  | .cdmaPde | .customPde | .mpc => .setServerIpv4 (addr hostname) port type

/-- The message names the server: by the url "host:port", which is empty for the host NONE, or
by address and port. -/
def ServerMsg.Denotes (msg : ServerMsg) (type : LocServerType) (hostname : CString)
    (port : Port) : Prop :=
  match type with
  | .supl =>
      msg = .setServerUrl
        (if sameIgnoringCase "NONE".toList hostname then [] else hostPort hostname port)
  | .cdmaPde | .customPde | .mpc => msg = .setServerIpv4 (addr hostname) port type

/-- The buffer keeps all of the host name that matters. -/
def Intact (type : LocServerType) (hostname : CString) : Prop :=
  match type with
  | .supl => hostname.length < hostBufSize
  | .cdmaPde | .customPde | .mpc => addr (strlcpy hostname hostBufSize) = addr hostname

instance (type : LocServerType) (hostname : CString) : Decidable (Intact addr type hostname) :=
  match type with
  | .supl => inferInstanceAs (Decidable (hostname.length < hostBufSize))
  | .cdmaPde | .customPde | .mpc =>
      inferInstanceAs (Decidable (addr (strlcpy hostname hostBufSize) = addr hostname))

theorem serverMsg_type (type : LocServerType) (hostname : CString) (port : Port) :
    (serverMsg addr type hostname port).type = type := by
  cases type <;> rfl

theorem serverUrl_fst (hostname : CString) (port : Port) :
    (serverUrl hostname port).1 =
      if sameIgnoringCase "NONE".toList hostname then [] else hostPort hostname port := by
  unfold serverUrl
  split <;> rfl

theorem denotes_iff (msg : ServerMsg) (type : LocServerType) (hostname : CString) (port : Port) :
    msg.Denotes addr type hostname port ↔ msg = serverMsg addr type hostname port := by
  cases type with
  | supl => rw [ServerMsg.Denotes, serverMsg, serverUrl_fst]
  | cdmaPde | customPde | mpc => exact Iff.rfl

theorem sameIgnoringCase_length {a b : CString} (same : sameIgnoringCase a b = true) :
    a.length = b.length := by
  have mapped := congrArg List.length (eq_of_beq same)
  simpa using mapped

theorem strlcpy_eq_self {hostname : CString} (short : hostname.length < hostBufSize) :
    strlcpy hostname hostBufSize = hostname :=
  List.take_of_length_le (Nat.le_sub_one_of_lt short)

theorem serverUrl_of_long {hostname : CString} (long : 4 < hostname.length) (port : Port) :
    (serverUrl hostname port).1 = hostPort hostname port := by
  rw [serverUrl_fst, if_neg]
  intro none
  have four := sameIgnoringCase_length none
  have length : "NONE".toList.length = 4 := by decide
  omega

/-- A cut host name gives another url. -/
theorem serverUrl_strlcpy_iff (hostname : CString) (port : Port) :
    (serverUrl (strlcpy hostname hostBufSize) port).1 = (serverUrl hostname port).1 ↔
      hostname.length < hostBufSize := by
  constructor
  · intro same
    by_contra long
    have size : hostBufSize = 101 := rfl
    have cut : (strlcpy hostname hostBufSize).length = 100 := by
      rw [strlcpy, List.length_take]
      omega
    rw [serverUrl_of_long (by omega), serverUrl_of_long (by omega)] at same
    have lengths := congrArg List.length same
    rw [hostPort, hostPort, List.length_append, List.length_append] at lengths
    omega
  · intro short
    rw [strlcpy_eq_self short]

/-- What is replayed from the buffer is the message of the setting exactly if the buffer holds
enough of it. -/
theorem serverMsg_strlcpy_iff (type : LocServerType) (hostname : CString) (port : Port) :
    serverMsg addr type (strlcpy hostname hostBufSize) port = serverMsg addr type hostname port ↔
      Intact addr type hostname := by
  cases type with
  | supl =>
      rw [serverMsg, serverMsg, ServerMsg.setServerUrl.injEq]
      exact serverUrl_strlcpy_iff hostname port
  | cdmaPde | customPde | mpc => simp [serverMsg, Intact]

/-- The url of the server fits. -/
def Fits (type : LocServerType) (hostname : CString) (port : Port) : Prop :=
  type = .supl → (hostPort hostname port).length < MAX_URL_LEN

theorem Fits.strlcpy {type : LocServerType} {hostname : CString} {port : Port}
    (fits : Fits type hostname port) : Fits type (strlcpy hostname hostBufSize) port := by
  intro supl
  have whole := fits supl
  rw [hostPort, List.length_append] at whole ⊢
  have cut := List.length_take_le' (hostBufSize - 1) hostname
  exact Nat.lt_of_le_of_lt (Nat.add_le_add_right cut _) whole

theorem setServer_eq {type : LocServerType} {hostname : CString} {port : Port}
    (fits : Fits type hostname port) (s : LocEngData) :
    (s.setServer (resolved addr) type hostname port).2 =
      s.sendMsg (serverMsg addr type hostname port) := by
  cases type with
  | supl =>
      have len : (serverUrl hostname port).2 < MAX_URL_LEN := by
        unfold serverUrl
        split
        · decide
        · exact fits rfl
      simp only [setServer, serverMsg]
      exact if_pos len
  | cdmaPde | customPde | mpc => rfl

/-- What a buffer that is set makes of the last message of its type. -/
def replay (type : LocServerType) (buf : AddressBuf) (last : Option ServerMsg) :
    Option ServerMsg :=
  if buf.host_set then some (serverMsg addr type buf.host_buf buf.port_buf) else last

/-- The buffers hold servers whose urls fit. -/
def BufsFit (s : LocEngData) : Prop :=
  ∀ type, (s.buf type).host_set = true → Fits type (s.buf type).host_buf (s.buf type).port_buf

/-- One half of loc_eng_agps_reinit. -/
def sendBuffered (type : LocServerType) (s : LocEngData) : LocEngData :=
  if (s.buf type).host_set then
    s.sendMsg (serverMsg addr type (s.buf type).host_buf (s.buf type).port_buf)
  else s

theorem sendBuffered_fields (type : LocServerType) (s : LocEngData) :
    (sendBuffered addr type s).adapter = s.adapter ∧
      (sendBuffered addr type s).agps_status_cb = s.agps_status_cb ∧
      (sendBuffered addr type s).buf = s.buf := by
  unfold sendBuffered
  split <;> exact ⟨rfl, rfl, rfl⟩

theorem lastSent_sendBuffered_self (type : LocServerType) (s : LocEngData) :
    (sendBuffered addr type s).lastSent type =
      replay addr type (s.buf type) (s.lastSent type) := by
  unfold sendBuffered replay
  split
  · rw [lastSent_sendMsg, serverMsg_type, if_pos rfl]
  · rfl

theorem lastSent_sendBuffered_of_ne {type other : LocServerType} (ne : type ≠ other)
    (s : LocEngData) : (sendBuffered addr type s).lastSent other = s.lastSent other := by
  unfold sendBuffered
  split
  · rw [lastSent_sendMsg, serverMsg_type, if_neg ne]
  · rfl

theorem agpsReinit_eq {s : LocEngData} (fit : BufsFit s) :
    s.agpsReinit (resolved addr) = sendBuffered addr .cdmaPde (sendBuffered addr .supl s) := by
  have supl : (if s.supl.host_set then
      (s.setServer (resolved addr) .supl s.supl.host_buf s.supl.port_buf).2 else s) =
      sendBuffered addr .supl s := by
    by_cases set : s.supl.host_set = true
    · have sent := setServer_eq addr (fit .supl set) s
      rw [if_pos set, sendBuffered, buf, if_pos set]
      exact sent
    · rw [if_neg set, sendBuffered, buf, if_neg set]
  rw [agpsReinit, supl]
  rfl

theorem agpsReinit_fields {s : LocEngData} (fit : BufsFit s) :
    (s.agpsReinit (resolved addr)).adapter = s.adapter ∧
      (s.agpsReinit (resolved addr)).agps_status_cb = s.agps_status_cb ∧
      (s.agpsReinit (resolved addr)).buf = s.buf := by
  obtain ⟨adapter, status, buf⟩ := sendBuffered_fields addr .supl s
  obtain ⟨adapter', status', buf'⟩ :=
    sendBuffered_fields addr .cdmaPde (sendBuffered addr .supl s)
  rw [agpsReinit_eq addr fit]
  exact ⟨adapter'.trans adapter, status'.trans status, buf'.trans buf⟩

theorem agpsReinit_lastSent {s : LocEngData} (fit : BufsFit s) {type : LocServerType}
    (buffered : type.Buffered) :
    (s.agpsReinit (resolved addr)).lastSent type =
      replay addr type (s.buf type) (s.lastSent type) := by
  rw [agpsReinit_eq addr fit]
  rcases buffered with rfl | rfl
  · rw [lastSent_sendBuffered_of_ne addr (by decide), lastSent_sendBuffered_self]
  · rw [lastSent_sendBuffered_self, lastSent_sendBuffered_of_ne addr (by decide),
      (sendBuffered_fields addr .supl s).2.2]

/-- What the buffer and the messages of a type have to do with the setting made last of it. -/
def Kept (s : LocEngData) (type : LocServerType) : Option Setting → Prop
  | none => (s.buf type).host_set = false ∧ s.lastSent type = none
  | some ⟨_, _, false⟩ =>
      (s.adapter = true → (s.buf type).host_set = false) ∧ s.lastSent type = none
  | some ⟨hostname, port, true⟩ =>
      s.adapter = true ∧ s.buf type = buffered hostname port ∧
        s.lastSent type = some (serverMsg addr type hostname port)

structure Recorded (p : LocEngData × Settings) : Prop where
  fit : BufsFit p.1
  uninitialised : p.1.adapter = false → p.1.agps_status_cb = false
  kept : ∀ type : LocServerType, type.Buffered → Kept addr p.1 type (p.2 type)

/-- The label sends the buffers again. -/
def Replays (s : LocEngData) : Label → Bool
  | .agpsInit => s.adapter
  | .engineUp => s.agps_status_cb
  | _ => false

def Label.Checkpoint (l : Label) : Prop := l = .agpsInit ∨ l = .engineUp

instance (l : Label) : Decidable l.Checkpoint := inferInstanceAs (Decidable (_ ∨ _))

/-- What a checkpoint makes of the last message of a type. -/
def lastAfter (s : LocEngData) (l : Label) (type : LocServerType) : Option ServerMsg :=
  if Replays s l then replay addr type (s.buf type) (s.lastSent type) else s.lastSent type

namespace Kept
variable {addr} {s t : LocEngData} {type : LocServerType} {l : Label}

theorem replays_iff {setting : Setting} (kept : Kept addr s type (some setting))
    (adapter : Replays s l = true → s.adapter = true) :
    (∃ msg, lastAfter addr s l type = some msg ∧
      msg.Denotes addr type setting.hostname setting.port) ↔
    setting.afterInit = true ∧ (Replays s l = true → Intact addr type setting.hostname) := by
  obtain ⟨hostname, port, afterInit⟩ := setting
  cases afterInit with
  | false =>
      obtain ⟨cleared, unsent⟩ := kept
      have nothing : lastAfter addr s l type = none := by
        unfold lastAfter replay
        split
        · rename_i again
          rw [cleared (adapter again), unsent]
          rfl
        · exact unsent
      refine iff_of_false (fun ⟨msg, last, _⟩ => ?_) fun ⟨late, _⟩ => by cases late
      rw [nothing] at last
      cases last
  | true =>
      obtain ⟨-, buf, sent⟩ := kept
      cases again : Replays s l with
      | false =>
          refine iff_of_true ⟨serverMsg addr type hostname port, ?_, ?_⟩
            ⟨rfl, fun no => by cases no⟩
          · rw [lastAfter, again, sent]
            rfl
          · exact (denotes_iff addr _ _ _ _).mpr rfl
      | true =>
          have last : lastAfter addr s l type =
              some (serverMsg addr type (strlcpy hostname hostBufSize) port) := by
            rw [lastAfter, again, if_pos rfl, replay, buf]
            rfl
          rw [last]
          constructor
          · rintro ⟨msg, same, denotes⟩
            obtain rfl := Option.some.inj same
            refine ⟨rfl, fun _ => ?_⟩
            exact (serverMsg_strlcpy_iff addr type hostname port).mp
              ((denotes_iff addr _ _ _ _).mp denotes)
          · intro ⟨_, intact⟩
            refine ⟨_, rfl, (denotes_iff addr _ _ _ _).mpr ?_⟩
            exact (serverMsg_strlcpy_iff addr type hostname port).mpr (intact rfl)

theorem checkpoint {setting : Option Setting} (kept : Kept addr s type setting)
    (replayable : ∀ x ∈ setting,
      x.afterInit = true ∧ (Replays s l = true → Intact addr type x.hostname))
    (adapter : t.adapter = s.adapter) (buf : t.buf = s.buf)
    (last : t.lastSent type = lastAfter addr s l type) : Kept addr t type setting := by
  cases setting with
  | none =>
      obtain ⟨unset, unsent⟩ := kept
      refine ⟨buf ▸ unset, ?_⟩
      rw [last, lastAfter, replay, unset, unsent]
      split <;> rfl
  | some setting =>
      obtain ⟨hostname, port, afterInit⟩ := setting
      obtain ⟨late, intact⟩ := replayable _ rfl
      obtain rfl : afterInit = true := late
      obtain ⟨client, held, sent⟩ := kept
      refine ⟨adapter.trans client, (congrFun buf type).trans held, ?_⟩
      rw [last, lastAfter, sent]
      split
      · rename_i again
        have same := (serverMsg_strlcpy_iff addr type hostname port).mpr (intact again)
        rw [replay, held, ← same]
        rfl
      · rfl

/-- Without an adapter nothing was sent. -/
theorem unsent {setting : Option Setting} (kept : Kept addr s type setting)
    (none : s.adapter = false) : s.lastSent type = .none := by
  cases setting with
  | none => exact kept.2
  | some setting =>
      obtain ⟨hostname, port, afterInit⟩ := setting
      cases afterInit with
      | false => exact kept.2
      | true => exact absurd kept.1 (by rw [none]; decide)

/-- What was set without an adapter may be cleared. -/
theorem cleared {setting : Option Setting} (kept : Kept addr s type setting)
    (none : s.adapter = false) (unset : (t.buf type).host_set = false)
    (nothing : t.lastSent type = .none) : Kept addr t type setting := by
  cases setting with
  | none => exact ⟨unset, nothing⟩
  | some setting =>
      obtain ⟨hostname, port, afterInit⟩ := setting
      cases afterInit with
      | false => exact ⟨fun _ => unset, nothing⟩
      | true => exact absurd kept.1 (by rw [none]; decide)

theorem of_same {setting : Option Setting} (kept : Kept addr s type setting)
    (adapter : t.adapter = s.adapter) (buf : t.buf type = s.buf type)
    (last : t.lastSent type = s.lastSent type) : Kept addr t type setting := by
  unfold Kept at kept ⊢
  rw [adapter, buf, last]
  exact kept

end Kept

/-- After an loc_eng_agps_init or a restart the last message of each type names the server set
last. -/
def Survives (_ : LocEngData × Settings) (l : Label) (q : LocEngData × Settings) : Prop :=
  l.Checkpoint → ∀ type : LocServerType, type.Buffered → ∀ setting, q.2 type = some setting →
    ∃ msg, q.1.lastSent type = some msg ∧ msg.Denotes addr type setting.hostname setting.port

/-- What was set last was set after loc_eng_init, and if it is sent again its buffer has kept
enough of it. -/
def Replayable (p : LocEngData × Settings) (l : Label) : Prop :=
  l.Checkpoint → ∀ type ∈ [LocServerType.supl, .cdmaPde], ∀ setting ∈ p.2 type,
    setting.afterInit = true ∧ (Replays p.1 l = true → Intact addr type setting.hostname)

instance (p : LocEngData × Settings) (l : Label) : Decidable (Replayable addr p l) :=
  inferInstanceAs (Decidable (_ → ∀ type ∈ [LocServerType.supl, .cdmaPde],
    ∀ setting ∈ p.2 type, _))

section Steps
variable {addr} {CAPABILITIES : BitVec 32} {s t : LocEngData} {settings : Settings}

theorem checkpoint_step
    (capable : CAPABILITIES &&& GPS_CAPABILITY_MSA ≠ 0 ∨ CAPABILITIES &&& GPS_CAPABILITY_MSB ≠ 0)
    (fit : BufsFit s) (uninitialised : s.adapter = false → s.agps_status_cb = false) {l : Label}
    (checkpoint : l.Checkpoint) (taken : step (resolved addr) CAPABILITIES s l = some t) :
    t.adapter = s.adapter ∧ t.buf = s.buf ∧ (t.adapter = false → t.agps_status_cb = false) ∧
      ∀ type : LocServerType, type.Buffered → t.lastSent type = lastAfter addr s l type := by
  rcases checkpoint with rfl | rfl
  · simp only [step, Option.ite_none_left_eq_some, Option.some.injEq] at taken
    obtain ⟨fresh, rfl⟩ := taken
    cases adapter : s.adapter with
    | false =>
        have same : s.agpsInit (resolved addr) CAPABILITIES = s := by simp [agpsInit, adapter]
        rw [same]
        exact ⟨adapter, rfl, uninitialised, fun type _ => by simp [lastAfter, Replays, adapter]⟩
    | true =>
        have started : s.agpsInit (resolved addr) CAPABILITIES =
            ({ s with agps_status_cb := true } : LocEngData).agpsReinit (resolved addr) := by
          rw [agpsInit, if_pos adapter, if_neg fresh]
          exact if_pos capable
        have fit' : BufsFit { s with agps_status_cb := true } := fit
        obtain ⟨adapter', -, buf⟩ := agpsReinit_fields addr fit'
        have client := adapter'.trans adapter
        rw [started]
        refine ⟨client, buf, fun none => ?_, fun type buffered => ?_⟩
        · rw [client] at none
          cases none
        · rw [agpsReinit_lastSent addr fit' buffered, lastAfter, Replays, adapter]
          rfl
  · simp only [step, Option.ite_none_right_eq_some, Option.some.injEq] at taken
    obtain ⟨client, rfl⟩ := taken
    cases status : s.agps_status_cb with
    | false =>
        have same : s.handleEngineUp (resolved addr) = s := by simp [handleEngineUp, status]
        rw [same]
        exact ⟨rfl, rfl, uninitialised, fun type _ => by simp [lastAfter, Replays, status]⟩
    | true =>
        have restarted : s.handleEngineUp (resolved addr) = s.agpsReinit (resolved addr) :=
          if_pos status
        obtain ⟨adapter, -, buf⟩ := agpsReinit_fields addr fit
        rw [restarted]
        refine ⟨adapter, buf, fun none => ?_, fun type buffered => ?_⟩
        · rw [adapter, client] at none
          cases none
        · rw [agpsReinit_lastSent addr fit buffered, lastAfter, Replays, status]
          rfl

theorem Replayable.setting {l : Label} (replayable : Replayable addr (s, settings) l)
    (checkpoint : l.Checkpoint) {type : LocServerType} (buffered : type.Buffered) :
    ∀ x ∈ settings type,
      x.afterInit = true ∧ (Replays s l = true → Intact addr type x.hostname) := by
  refine replayable checkpoint type ?_
  rcases buffered with rfl | rfl
  · simp
  · simp

theorem noteSetting_checkpoint {l : Label} (checkpoint : l.Checkpoint) :
    noteSetting s l t settings = settings := by
  rcases checkpoint with rfl | rfl
  · rfl
  · rfl

/-- The buffer loc_eng_set_server_proxy writes. -/
def writeBuf (type : LocServerType) (buffer : AddressBuf) (s : LocEngData) : LocEngData :=
  match type with
  | .supl => { s with supl := buffer }
  | .cdmaPde => { s with c2k := buffer }
  | .customPde | .mpc => s

theorem writeBuf_buf (type : LocServerType) (buffer : AddressBuf) (s : LocEngData)
    (other : LocServerType) :
    (writeBuf type buffer s).buf other =
      if other = type ∧ type.Buffered then buffer else s.buf other := by
  cases type <;> cases other <;> rfl

theorem writeBuf_fields (type : LocServerType) (buffer : AddressBuf) (s : LocEngData) :
    (writeBuf type buffer s).adapter = s.adapter ∧
      (writeBuf type buffer s).agps_status_cb = s.agps_status_cb ∧
      (writeBuf type buffer s).msgs = s.msgs := by
  cases type <;> exact ⟨rfl, rfl, rfl⟩

theorem setServerProxy_eq {type : LocServerType} {hostname : CString} {port : Port}
    (fits : Fits type hostname port) (s : LocEngData) :
    (s.setServerProxy (resolved addr) type hostname port).2 =
      if s.adapter then
        (writeBuf type (buffered hostname port) s).sendMsg (serverMsg addr type hostname port)
      else writeBuf type (buffered hostname port) s := by
  have sent := setServer_eq addr fits (writeBuf type (buffered hostname port) s)
  by_cases client : s.adapter = true
  · rw [if_pos client, ← sent]
    cases type <;> exact congrArg Prod.snd (if_pos client)
  · rw [if_neg client]
    cases type <;> exact congrArg Prod.snd (if_neg client)

/-- What loc_eng_set_server_proxy writes and sends. -/
theorem setServerProxy_fields {type : LocServerType} {hostname : CString} {port : Port}
    (fits : Fits type hostname port) {s t : LocEngData}
    (set : (s.setServerProxy (resolved addr) type hostname port).2 = t) :
    t.adapter = s.adapter ∧ t.agps_status_cb = s.agps_status_cb ∧
      (∀ other, t.buf other =
        if other = type ∧ type.Buffered then buffered hostname port else s.buf other) ∧
      ∀ other, t.lastSent other =
        if s.adapter = true ∧ type = other then some (serverMsg addr type hostname port)
        else s.lastSent other := by
  obtain ⟨adapter, status, msgs⟩ := writeBuf_fields type (buffered hostname port) s
  have unsent : ∀ other,
      (writeBuf type (buffered hostname port) s).lastSent other = s.lastSent other := by
    intro other
    rw [lastSent, msgs, lastSent]
  rw [setServerProxy_eq fits] at set
  subst set
  by_cases client : s.adapter = true
  · rw [if_pos client]
    refine ⟨adapter, status, fun other => writeBuf_buf type _ s other, fun other => ?_⟩
    rw [lastSent_sendMsg, serverMsg_type, unsent]
    simp only [client, true_and]
  · rw [if_neg client]
    refine ⟨adapter, status, fun other => writeBuf_buf type _ s other, fun other => ?_⟩
    rw [unsent, if_neg fun sent => client sent.1]

namespace Recorded

theorem zero : Recorded addr (LocEngData.zero, fun _ => none) where
  fit type set := by cases type <;> cases set
  uninitialised _ := rfl
  kept type buffered := by rcases buffered with rfl | rfl <;> exact ⟨rfl, rfl⟩

theorem survives_iff
    (capable : CAPABILITIES &&& GPS_CAPABILITY_MSA ≠ 0 ∨ CAPABILITIES &&& GPS_CAPABILITY_MSB ≠ 0)
    (h : Recorded addr (s, settings)) {l : Label}
    (taken : step (resolved addr) CAPABILITIES s l = some t) :
    Survives addr (s, settings) l (t, noteSetting s l t settings) ↔
      Replayable addr (s, settings) l := by
  by_cases checkpoint : l.Checkpoint
  · obtain ⟨-, -, -, last⟩ := checkpoint_step capable h.fit h.uninitialised checkpoint taken
    have adapter : Replays s l = true → s.adapter = true := by
      intro again
      rcases checkpoint with rfl | rfl
      · exact again
      · by_contra none
        have unset := h.uninitialised (Bool.eq_false_iff.mpr none)
        exact absurd again (by rw [Replays, unset]; decide)
    have each : ∀ type : LocServerType, type.Buffered → ∀ setting, settings type = some setting →
        ((∃ msg, t.lastSent type = some msg ∧
          msg.Denotes addr type setting.hostname setting.port) ↔
        setting.afterInit = true ∧ (Replays s l = true → Intact addr type setting.hostname)) := by
      intro type buffered setting noted
      have kept := h.kept type buffered
      rw [last type buffered]
      exact (noted ▸ kept : Kept addr s type (some setting)).replays_iff adapter
    rw [noteSetting_checkpoint checkpoint]
    constructor
    · intro survives _ type mem setting noted
      have buffered : type.Buffered := by simpa [LocServerType.Buffered] using mem
      exact (each type buffered setting noted).mp (survives checkpoint type buffered setting noted)
    · intro replayable _ type buffered setting noted
      exact (each type buffered setting noted).mpr
        (replayable.setting checkpoint buffered setting noted)
  · exact iff_of_true (fun no => absurd no checkpoint) (fun no => absurd no checkpoint)

theorem setServerProxy (h : Recorded addr (s, settings)) {type : LocServerType}
    {hostname : CString} {port : Port} (short : (hostPort hostname port).length < MAX_URL_LEN) :
    Recorded addr ((s.setServerProxy (resolved addr) type hostname port).2,
      Function.update settings type (some ⟨hostname, port, s.adapter⟩)) := by
  have fits : Fits type hostname port := fun _ => short
  obtain ⟨adapter, status, buf, last⟩ := setServerProxy_fields fits
    (rfl : (s.setServerProxy (resolved addr) type hostname port).2 = _)
  refine ⟨fun other set => ?_, fun none => ?_, fun other buffered => ?_⟩
  · simp only [buf] at set ⊢
    split
    · rename_i own
      rw [own.1]
      exact fits.strlcpy
    · rename_i foreign
      rw [if_neg foreign] at set
      exact h.fit other set
  · exact status.trans (h.uninitialised (adapter.symm.trans none))
  · by_cases own : other = type
    · subst own
      have kept := h.kept other buffered
      have held := (buf other).trans (if_pos ⟨rfl, buffered⟩)
      simp only [Function.update_self]
      cases client : s.adapter with
      | false =>
          refine ⟨fun late => ?_, ?_⟩
          · exact absurd (adapter.symm.trans late) (by rw [client]; decide)
          · rw [last, if_neg (fun sent => by simp [client] at sent)]
            exact kept.unsent client
      | true => exact ⟨adapter.trans client, held, (last other).trans (if_pos ⟨client, rfl⟩)⟩
    · have kept := (h.kept other buffered).of_same adapter
        ((buf other).trans (if_neg fun same => own same.1))
        ((last other).trans (if_neg fun same => own same.2.symm))
      simpa only [Function.update_of_ne own] using kept

theorem locEngInit (h : Recorded addr (s, settings)) (none : s.adapter = false) :
    Recorded addr (s.locEngInit, settings) := by
  have cleared : s.locEngInit = { LocEngData.zero with adapter := true, msgs := s.msgs } := by
    simp [LocEngData.locEngInit, none]
  have unset : ∀ type, (s.locEngInit.buf type).host_set = false := by
    intro type
    rw [cleared]
    cases type <;> rfl
  have last : ∀ type, s.locEngInit.lastSent type = s.lastSent type := by
    intro type
    rw [cleared]
    rfl
  refine ⟨fun type set => ?_, fun never => ?_, fun type buffered => ?_⟩
  · rw [unset] at set
    cases set
  · rw [cleared] at never
    cases never
  · have kept := h.kept type buffered
    exact kept.cleared none (unset type) ((last type).trans (kept.unsent none))

theorem step
    (capable : CAPABILITIES &&& GPS_CAPABILITY_MSA ≠ 0 ∨ CAPABILITIES &&& GPS_CAPABILITY_MSB ≠ 0)
    (h : Recorded addr (s, settings)) {l : Label} (replayable : Replayable addr (s, settings) l)
    (taken : step (resolved addr) CAPABILITIES s l = some t) :
    Recorded addr (t, noteSetting s l t settings) := by
  by_cases checkpoint : l.Checkpoint
  · obtain ⟨adapter, buf, uninitialised, last⟩ :=
      checkpoint_step capable h.fit h.uninitialised checkpoint taken
    rw [noteSetting_checkpoint checkpoint]
    refine ⟨fun type set => ?_, uninitialised, fun type buffered => ?_⟩
    · simp only [buf] at set ⊢
      exact h.fit type set
    · exact (h.kept type buffered).checkpoint (replayable.setting checkpoint buffered) adapter buf
        (last type buffered)
  · cases l with
    | setServerProxy type hostname port =>
        simp only [LocServer.step, Option.ite_none_right_eq_some, Option.some.injEq] at taken
        obtain ⟨short, rfl⟩ := taken
        exact h.setServerProxy short
    | locEngInit =>
        simp only [LocServer.step, Option.ite_none_left_eq_some, Option.some.injEq] at taken
        obtain ⟨none, rfl⟩ := taken
        exact h.locEngInit (Bool.eq_false_iff.mpr none)
    | agpsInit => exact absurd (.inl rfl) checkpoint
    | engineUp => exact absurd (.inr rfl) checkpoint

end Recorded
end Steps

/-- With MSA or MSB, the settings of a run survive its loc_eng_agps_init and its restarts
exactly if at each of these the server set last of each type was set after loc_eng_init and,
where it is sent again, was not cut in its buffer. -/
theorem server_settings_survive_iff {CAPABILITIES : BitVec 32}
    (capable : CAPABILITIES &&& GPS_CAPABILITY_MSA ≠ 0 ∨ CAPABILITIES &&& GPS_CAPABILITY_MSB ≠ 0)
    {ls : List Label} {q : LocEngData × Settings}
    (run : Run (monitored (step (resolved addr) CAPABILITIES) noteSetting)
      (LocEngData.zero, fun _ => none) ls q) :
    EachStep (monitored (step (resolved addr) CAPABILITIES) noteSetting) (Survives addr)
        (LocEngData.zero, fun _ => none) ls ↔
      Meets (monitored (step (resolved addr) CAPABILITIES) noteSetting) (Replayable addr)
        (LocEngData.zero, fun _ => none) ls := by
  refine run.eachStep_iff_meets_of_invariant (I := Recorded addr) (fun p l q h taken => ?_)
    (fun p l q h replayable taken => ?_) .zero
  · obtain ⟨stepped, noted⟩ := monitored_iff.mp taken
    have exactly_replayable := h.survives_iff capable stepped
    rwa [← noted] at exactly_replayable
  · obtain ⟨stepped, noted⟩ := monitored_iff.mp taken
    have recorded := h.step capable replayable stepped
    rwa [← noted] at recorded

section Runs

/-- A resolver for the runs below. -/
def byLength (hostname : CString) : Ipv4 := BitVec.ofNat 32 hostname.length

theorem settings_after_init_survive :
    EachStep (monitored (step (resolved byLength) 7) noteSetting) (Survives byLength)
      (LocEngData.zero, fun _ => none)
      [.locEngInit, .setServerProxy .supl "supl.host".toList 7275,
        .setServerProxy .cdmaPde "pde.host".toList 8888, .agpsInit, .engineUp] :=
  (server_settings_survive_iff byLength (.inl (by decide)) (run_iff_foldlM.mpr rfl)).mpr
    (by decide)

/-- A server that is set before loc_eng_init is never sent, and one with a host name of 101
characters is cut when it is sent again. -/
theorem settings_are_lost :
    ¬ EachStep (monitored (step (resolved byLength) 7) noteSetting) (Survives byLength)
      (LocEngData.zero, fun _ => none)
      [.setServerProxy .supl "supl.host".toList 7275, .locEngInit, .agpsInit] ∧
    ¬ EachStep (monitored (step (resolved byLength) 7) noteSetting) (Survives byLength)
      (LocEngData.zero, fun _ => none)
      [.locEngInit, .setServerProxy .supl (List.replicate 101 'a') 7275, .agpsInit] := by
  refine ⟨fun all => ?_, fun all => ?_⟩
  · obtain ⟨msg, sent, -⟩ := all [_, _] .agpsInit [] _ _ rfl (.cons rfl (.cons rfl (.nil _))) rfl
      (.inl rfl) .supl (.inl rfl) ⟨"supl.host".toList, 7275, false⟩ rfl
    cases sent
  · obtain ⟨msg, sent, denotes⟩ := all [_, _] .agpsInit [] _ _ rfl (.cons rfl (.cons rfl (.nil _)))
      rfl (.inl rfl) .supl (.inl rfl) ⟨List.replicate 101 'a', 7275, true⟩ rfl
    obtain rfl := Option.some.inj sent
    have same : serverMsg byLength .supl (strlcpy (List.replicate 101 'a') hostBufSize) 7275 =
        serverMsg byLength .supl (List.replicate 101 'a') 7275 :=
      (denotes_iff byLength _ _ _ _).mp denotes
    exact absurd ((serverMsg_strlcpy_iff byLength .supl _ 7275).mp same) (by decide)

end Runs

end Msm8974.LocServer
