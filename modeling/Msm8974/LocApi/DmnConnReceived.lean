import Mathlib.Data.List.TakeWhile
import Msm8974.LocApi.DmnConnHandler

/-!
Which messages decide by themselves what loc_api_server_proc does. A handler reads every field
of its sender, received or not, so that a shorter message is completed by what malloc returned.
-/

namespace Msm8974.DmnConn

/-- The received bytes of the word at `pos` are not those of a number below `n`. -/
def RuledOut (r : Received) (pos n : Nat) : Prop :=
  (pos < r.length ∧ n ≤ (r.p_cmsgbuf pos).toNat) ∨
    ∃ i, pos < i ∧ i < pos + 4 ∧ i < r.length ∧ r.p_cmsgbuf i ≠ 0

/-- The text at `pos` ends within the received bytes. -/
def TextReceived (r : Received) (pos : Nat) : Prop :=
  pos + 32 ≤ r.length ∨ ∃ i, pos ≤ i ∧ i < r.length ∧ r.p_cmsgbuf i = 0

/-- The received bytes tell what a handler does. -/
def HandlerDecided (r : Received) : Prop :=
  RuledOut r 16 3 ∨ (20 ≤ r.length ∧ (RuledOut r 20 4 ∨ (24 ≤ r.length ∧
    if r.p_cmsgbuf.sender_id = 3 then 44 ≤ r.length
    else TextReceived r 44 ∧ TextReceived r 77)))

/-- The received bytes tell what loc_api_server_proc does. -/
def Decided (loc_api_handle : Bool) (r : Received) : Prop :=
  12 < r.length ∧
    ((r.p_cmsgbuf.ctrl_type = GPSONE_LOC_API_IF_REQUEST ∧ loc_api_handle = true) ∨
      r.p_cmsgbuf.ctrl_type = GPSONE_LOC_API_IF_RELEASE → HandlerDecided r)

/-- A buffer that holds the same received bytes. -/
def Received.Same (r : Received) (other : Buffer) : Prop :=
  ∀ i < r.length, other i = r.p_cmsgbuf i

/-- The received bytes with `c` in all others. -/
def Received.fill (r : Received) (c : UInt8) : Buffer := fun i =>
  if i < r.length then r.p_cmsgbuf i else c

theorem Received.fill_same (r : Received) (c : UInt8) : r.Same (r.fill c) := fun _ h => if_pos h

namespace Buffer

variable {a b : Buffer} {pos n : Nat}

theorem word_toNat (msgp : Buffer) (pos : Nat) : (msgp.word pos).toNat =
    (msgp pos).toNat + 2 ^ 8 * (msgp (pos + 1)).toNat + 2 ^ 16 * (msgp (pos + 2)).toNat +
      2 ^ 24 * (msgp (pos + 3)).toNat := by
  have h0 := (msgp pos).toNat_lt
  have h1 := (msgp (pos + 1)).toNat_lt
  have h2 := (msgp (pos + 2)).toNat_lt
  have h3 := (msgp (pos + 3)).toNat_lt
  rw [word, BitVec.toNat_ofNat, Nat.mod_eq_of_lt (by omega)]

theorem word_lt (small : n ≤ 256) : (a.word pos).toNat < n ↔
    (a pos).toNat < n ∧ ∀ i, pos < i → i < pos + 4 → a i = 0 := by
  have zero : ∀ x : UInt8, x = 0 ↔ x.toNat = 0 := fun x => by rw [← UInt8.toNat_inj]; rfl
  rw [word_toNat]
  constructor
  · intro lt
    refine ⟨by omega, fun i after before => (zero _).mpr ?_⟩
    obtain rfl | rfl | rfl : i = pos + 1 ∨ i = pos + 2 ∨ i = pos + 3 := by omega
    · omega
    · omega
    · omega
  · intro ⟨low, high⟩
    rw [high (pos + 1) (by omega) (by omega), high (pos + 2) (by omega) (by omega),
      high (pos + 3) (by omega) (by omega)]
    simpa using low

theorem word_congr (same : ∀ i, pos ≤ i → i < pos + 4 → a i = b i) : a.word pos = b.word pos := by
  rw [word, word, same pos (by omega) (by omega), same (pos + 1) (by omega) (by omega),
    same (pos + 2) (by omega) (by omega), same (pos + 3) (by omega) (by omega)]

theorem strlcpy_congr (a b : Buffer) {i : Nat} (ends : a i = 0) (len pos : Nat)
    (inside : pos ≤ i) (same : ∀ j, pos ≤ j → j ≤ i → a j = b j) (short : i < pos + len) :
    ((List.range' pos len).map a).takeWhile (· ≠ 0) =
      ((List.range' pos len).map b).takeWhile (· ≠ 0) := by
  induction len generalizing pos with
  | zero => rfl
  | succ len ih =>
      have head := same pos (Nat.le_refl _) inside
      rw [List.range'_succ, List.map_cons, List.map_cons, List.takeWhile_cons, List.takeWhile_cons,
        ← head]
      by_cases stops : a pos = 0
      · simp [stops]
      · have before : pos ≠ i := fun here => stops (here ▸ ends)
        rw [ih (pos + 1) (by omega) (fun j after => same j (by omega)) (by omega)]

end Buffer

section Fields
variable {r : Received} {other : Buffer} {pos n : Nat}

theorem RuledOut.word_ge (h : RuledOut r pos n) (small : n ≤ 256) (same : r.Same other) :
    ¬ (other.word pos).toNat < n := by
  rw [Buffer.word_lt small]
  intro ⟨low, high⟩
  rcases h with ⟨received, large⟩ | ⟨i, after, before, received, nonzero⟩
  · rw [same pos received] at low
    omega
  · exact nonzero ((same i received).symm.trans (high i after before))

theorem word_fill_zero (open_ : ¬ RuledOut r pos n) (positive : 0 < n) (small : n ≤ 256) :
    ((r.fill 0).word pos).toNat < n := by
  rw [Buffer.word_lt small]
  constructor
  · by_cases received : pos < r.length
    · rw [Received.fill, if_pos received]
      by_contra large
      exact open_ (.inl ⟨received, by omega⟩)
    · rw [Received.fill, if_neg received]
      exact positive
  · intro i after before
    by_cases received : i < r.length
    · rw [Received.fill, if_pos received]
      by_contra nonzero
      exact open_ (.inr ⟨i, after, before, received, nonzero⟩)
    · rw [Received.fill, if_neg received]

theorem word_fill_ones (missing : r.length < pos + 4) (small : n ≤ 256) :
    ¬ ((r.fill 255).word pos).toNat < n := by
  rw [Buffer.word_lt small]
  intro ⟨_, high⟩
  have last := high (pos + 3) (by omega) (by omega)
  rw [Received.fill, if_neg (by omega)] at last
  exact absurd last (by decide)

theorem word_same (received : pos + 4 ≤ r.length) (same : r.Same other) :
    other.word pos = r.p_cmsgbuf.word pos := by
  apply Buffer.word_congr
  intro i _ before
  exact same i (by omega)

theorem TextReceived.strlcpy_same (h : TextReceived r pos) (same : r.Same other) :
    other.strlcpy pos = r.p_cmsgbuf.strlcpy pos := by
  have whole : pos + 32 ≤ r.length → other.strlcpy pos = r.p_cmsgbuf.strlcpy pos := by
    intro all
    have bytes : (List.range' pos 32).map other = (List.range' pos 32).map r.p_cmsgbuf := by
      apply List.map_congr_left
      intro i mem
      rw [List.mem_range'_1] at mem
      exact same i (by omega)
    exact congrArg (List.takeWhile (· ≠ 0)) bytes
  rcases h with all | ⟨i, after, received, ends⟩
  · exact whole all
  · by_cases short : i < pos + 32
    · have agree : ∀ j, pos ≤ j → j ≤ i → r.p_cmsgbuf j = other j := fun j _ before =>
        (same j (by omega)).symm
      exact (Buffer.strlcpy_congr r.p_cmsgbuf other ends 32 pos after agree short).symm
    · exact whole (by omega)

theorem strlcpy_fill_ne (cut : ¬ TextReceived r pos) :
    (r.fill 1).strlcpy pos ≠ (r.fill 255).strlcpy pos := by
  have short : r.length < pos + 32 := by
    by_contra long
    exact cut (.inl (by omega))
  have nonzero : ∀ c, c ≠ 0 → ∀ i, pos ≤ i → r.fill c i ≠ 0 := by
    intro c positive i after zero
    by_cases received : i < r.length
    · rw [Received.fill, if_pos received] at zero
      exact cut (.inr ⟨i, after, received, zero⟩)
    · rw [Received.fill, if_neg received] at zero
      exact positive zero
  have all : ∀ c, c ≠ 0 → (r.fill c).strlcpy pos = (List.range' pos 32).map (r.fill c) := by
    intro c positive
    apply List.takeWhile_eq_self_iff.mpr
    intro x mem
    obtain ⟨i, place, rfl⟩ := List.mem_map.mp mem
    exact decide_eq_true (nonzero c positive i (List.mem_range'_1.mp place).1)
  intro same
  rw [all 1 (by decide), all 255 (by decide)] at same
  have last := List.map_inj_left.mp same (pos + 31) (by rw [List.mem_range'_1]; omega)
  rw [Received.fill, Received.fill, if_neg (by omega), if_neg (by omega)] at last
  exact absurd last (by decide)

theorem ipv6_fill_ne (short : r.length < 44) : (r.fill 0).ipv6_addr ≠ (r.fill 255).ipv6_addr := by
  intro same
  have last := List.map_inj_left.mp same 43 (by decide)
  rw [Received.fill, Received.fill, if_neg (by omega), if_neg (by omega)] at last
  exact absurd last (by decide)

theorem ipv6_same (received : 44 ≤ r.length) (same : r.Same other) :
    other.ipv6_addr = r.p_cmsgbuf.ipv6_addr := by
  apply List.map_congr_left
  intro i mem
  rw [List.mem_range'_1] at mem
  exact same i (by omega)

end Fields

section Handlers
variable {a b : Buffer} {isReq : Bool}

theorem below_three (x : BitVec 32) : x.toNat < 3 ↔ x = 0 ∨ x = 1 ∨ x = 2 := by
  simp only [BitVec.ofNat_eq_ofNat, ← BitVec.toNat_inj, BitVec.toNat_ofNat]
  omega

theorem below_four (x : BitVec 32) : x.toNat < 4 ↔ x.toNat < 3 ∨ x = 3 := by
  simp only [BitVec.ofNat_eq_ofNat, ← BitVec.toNat_inj, BitVec.toNat_ofNat]
  omega

theorem ifRequestType_isSome (type : BitVec 32) :
    (ifRequestType type).isSome ↔ type.toNat < 3 := by
  rw [below_three, ifRequestType]
  split_ifs with supl wifi any
  · exact iff_of_true rfl (.inl supl)
  · exact iff_of_true rfl (.inr (.inl wifi))
  · exact iff_of_true rfl (.inr (.inr any))
  · refine iff_of_false Bool.false_ne_true ?_
    rintro (h | h | h)
    · exact supl h
    · exact wifi h
    · exact any h

theorem ifHandler_rejected (invalid : ¬ (a.type.toNat < 3 ∧ a.sender_id.toNat < 4)) :
    ifHandler isReq a = .rejected (-1) := by
  unfold ifHandler
  cases known : ifRequestType a.type with
  | none => rfl
  | some t =>
      have valid : a.type.toNat < 3 := (ifRequestType_isSome _).mp (by simp [known])
      have unknown : ¬ a.sender_id.toNat < 4 := fun sender => invalid ⟨valid, sender⟩
      rw [below_four, below_three, not_or, not_or, not_or] at unknown
      obtain ⟨⟨h0, h1, h2⟩, h3⟩ := unknown
      simp only [if_neg h0, if_neg h1, if_neg h2, if_neg h3]

theorem ifHandler_sent (type : a.type.toNat < 3) (sender : a.sender_id.toNat < 4) :
    ifHandler isReq a ≠ .rejected (-1) := by
  obtain ⟨t, known⟩ := Option.isSome_iff_exists.mp ((ifRequestType_isSome _).mpr type)
  rw [below_four, below_three] at sender
  rcases sender with (h | h | h) | h <;> simp [ifHandler, known, h]

theorem ifHandler_bit (type : a.type = b.type) (valid : b.type.toNat < 3)
    (sender : a.sender_id = b.sender_id) (daemon : b.sender_id = 3) :
    ifHandler isReq a = ifHandler isReq b ↔
      a.ipv4_addr = b.ipv4_addr ∧ a.ipv6_addr = b.ipv6_addr := by
  obtain ⟨t, known⟩ := Option.isSome_iff_exists.mp ((ifRequestType_isSome _).mpr valid)
  simp [ifHandler, type, sender, daemon, known]

theorem ifHandler_wifi (type : a.type = b.type) (valid : b.type.toNat < 3)
    (sender : a.sender_id = b.sender_id) (wifi : b.sender_id.toNat < 3) :
    ifHandler isReq a = ifHandler isReq b ↔ a.ssid = b.ssid ∧ a.password = b.password := by
  obtain ⟨t, known⟩ := Option.isSome_iff_exists.mp ((ifRequestType_isSome _).mpr valid)
  rw [below_three] at wifi
  rcases wifi with h | h | h <;> simp [ifHandler, type, sender, known, h]

end Handlers

/-- The outcome is the same whatever lies behind the received bytes. -/
def Received.Determines (r : Received) (f : Buffer → Outcome) : Prop :=
  ∀ other, r.Same other → f other = f r.p_cmsgbuf

namespace Received
variable {r : Received} {isReq : Bool}

theorem Determines.fill {f : Buffer → Outcome} (h : r.Determines f) (c d : UInt8) :
    f (r.fill c) = f (r.fill d) :=
  (h _ (r.fill_same c)).trans (h _ (r.fill_same d)).symm

theorem determines_of_decided (h : HandlerDecided r) : r.Determines (ifHandler isReq) := by
  intro other same
  rcases h with noType | ⟨type, noSender | ⟨sender, fields⟩⟩
  · rw [ifHandler_rejected fun valid => noType.word_ge (by decide) same valid.1,
      ifHandler_rejected fun valid => noType.word_ge (by decide) (fun _ _ => rfl) valid.1]
  · rw [ifHandler_rejected fun valid => noSender.word_ge (by decide) same valid.2,
      ifHandler_rejected fun valid => noSender.word_ge (by decide) (fun _ _ => rfl) valid.2]
  · have type_eq : other.type = r.p_cmsgbuf.type := word_same type same
    have sender_eq : other.sender_id = r.p_cmsgbuf.sender_id := word_same sender same
    by_cases valid : r.p_cmsgbuf.type.toNat < 3 ∧ r.p_cmsgbuf.sender_id.toNat < 4
    · rcases (below_four _).mp valid.2 with wifi | daemon
      · have notDaemon : r.p_cmsgbuf.sender_id ≠ 3 := by
          intro daemon
          rw [daemon] at wifi
          exact absurd wifi (by decide)
        rw [if_neg notDaemon] at fields
        apply (ifHandler_wifi type_eq valid.1 sender_eq wifi).mpr
        exact ⟨fields.1.strlcpy_same same, fields.2.strlcpy_same same⟩
      · rw [if_pos daemon] at fields
        apply (ifHandler_bit type_eq valid.1 sender_eq daemon).mpr
        exact ⟨word_same (by omega) same, ipv6_same fields same⟩
    · rw [ifHandler_rejected (type_eq ▸ sender_eq ▸ valid), ifHandler_rejected valid]

/-- A message that decides less than the handler reads is completed in two ways. -/
theorem decided_of_determines (h : r.Determines (ifHandler isReq)) : HandlerDecided r := by
  by_cases noType : RuledOut r 16 3
  · exact .inl noType
  have filled := h.fill 0 255
  have type_zero := word_fill_zero noType (by decide) (by decide)
  have sent : ¬ RuledOut r 20 4 → ifHandler isReq (r.fill 0) ≠ .rejected (-1) := fun noSender =>
    ifHandler_sent type_zero (word_fill_zero noSender (by decide) (by decide))
  have type : 20 ≤ r.length := by
    by_contra short
    have noSender : ¬ RuledOut r 20 4 := by
      rintro (⟨received, -⟩ | ⟨i, after, -, received, -⟩) <;> omega
    apply sent noSender
    rw [filled]
    exact ifHandler_rejected fun valid => word_fill_ones (by omega) (by decide) valid.1
  by_cases noSender : RuledOut r 20 4
  · exact .inr ⟨type, .inl noSender⟩
  have sender : 24 ≤ r.length := by
    by_contra short
    apply sent noSender
    rw [filled]
    exact ifHandler_rejected fun valid => word_fill_ones (by omega) (by decide) valid.2
  have type_eq : ∀ c, (r.fill c).type = r.p_cmsgbuf.type := fun c => word_same type (r.fill_same c)
  have sender_eq : ∀ c, (r.fill c).sender_id = r.p_cmsgbuf.sender_id := fun c =>
    word_same sender (r.fill_same c)
  have valid : ∀ c, (r.fill c).type.toNat < 3 := fun c => by
    rw [type_eq, ← type_eq 0]
    exact type_zero
  have known : r.p_cmsgbuf.sender_id.toNat < 4 := by
    rw [← sender_eq 0]
    exact word_fill_zero noSender (by decide) (by decide)
  have types : ∀ c d, (r.fill c).type = (r.fill d).type := fun c d =>
    (type_eq c).trans (type_eq d).symm
  have senders : ∀ c d, (r.fill c).sender_id = (r.fill d).sender_id := fun c d =>
    (sender_eq c).trans (sender_eq d).symm
  refine .inr ⟨type, .inr ⟨sender, ?_⟩⟩
  split
  case isTrue daemon =>
    by_contra short
    obtain ⟨-, ipv6⟩ := (ifHandler_bit (types 0 255) (valid 255) (senders 0 255)
      ((sender_eq 255).trans daemon)).mp filled
    exact ipv6_fill_ne (by omega) ipv6
  case isFalse notDaemon =>
    have wifi : (r.fill 255).sender_id.toNat < 3 := by
      rw [sender_eq]
      exact ((below_four _).mp known).resolve_right notDaemon
    obtain ⟨ssid, password⟩ :=
      (ifHandler_wifi (types 1 255) (valid 255) (senders 1 255) wifi).mp (h.fill 1 255)
    constructor
    · by_contra cut
      exact strlcpy_fill_ne cut ssid
    · by_contra cut
      exact strlcpy_fill_ne cut password

theorem determines_handler_iff : r.Determines (ifHandler isReq) ↔ HandlerDecided r :=
  ⟨decided_of_determines, determines_of_decided⟩

theorem Determines.congr {f g : Buffer → Outcome}
    (same : ∀ other, r.Same other → f other = g other) : r.Determines f ↔ r.Determines g := by
  apply forall₂_congr
  intro other agrees
  rw [same other agrees, same r.p_cmsgbuf fun _ _ => rfl]

/-- The ctrl_type has arrived if the outcome is determined. -/
theorem ctrl_type_received {loc_api_handle : Bool}
    (h : r.Determines (locApiServerProc loc_api_handle)) : 12 < r.length := by
  by_contra missing
  have unblocked := h.fill GPSONE_UNBLOCK 0
  have behind : ∀ c, (r.fill c).ctrl_type = c := fun c => if_neg missing
  simp [locApiServerProc, behind, GPSONE_LOC_API_IF_REQUEST, GPSONE_LOC_API_IF_RELEASE,
    GPSONE_UNBLOCK] at unblocked

end Received

/-- Nothing but the received bytes has an influence, exactly if they decide what is done. -/
theorem outcome_depends_only_on_received_iff (loc_api_handle : Bool) (r : Received) :
    (∀ other : Buffer, (∀ i < r.length, other i = r.p_cmsgbuf i) →
      locApiServerProc loc_api_handle other = locApiServerProc loc_api_handle r.p_cmsgbuf) ↔
      Decided loc_api_handle r := by
  change r.Determines (locApiServerProc loc_api_handle) ↔ _
  by_cases received : 12 < r.length
  case neg =>
    exact iff_of_false (fun h => received (Received.ctrl_type_received h)) fun h => received h.1
  have ctrl : ∀ other, r.Same other → other.ctrl_type = r.p_cmsgbuf.ctrl_type :=
    fun other same => same 12 received
  rw [Decided, and_iff_right received]
  by_cases request : r.p_cmsgbuf.ctrl_type = GPSONE_LOC_API_IF_REQUEST
  · by_cases handle : loc_api_handle = true
    · have reaches : ∀ other, r.Same other →
          locApiServerProc loc_api_handle other = ifHandler true other := by
        intro other same
        rw [locApiServerProc, if_pos ((ctrl other same).trans request),
          locApiServerIfRequestHandler, if_pos handle]
      rw [Received.Determines.congr reaches, Received.determines_handler_iff]
      exact ⟨fun h _ => h, fun h => h (.inl ⟨request, handle⟩)⟩
    · refine iff_of_true (fun other same => ?_) ?_
      · simp [locApiServerProc, ctrl other same, request, locApiServerIfRequestHandler, handle]
      · rintro (⟨-, set⟩ | release)
        · exact absurd set handle
        · exact absurd (request.symm.trans release) (by decide)
  · by_cases release : r.p_cmsgbuf.ctrl_type = GPSONE_LOC_API_IF_RELEASE
    · have reaches : ∀ other, r.Same other →
          locApiServerProc loc_api_handle other = ifHandler false other := by
        intro other same
        rw [locApiServerProc, ctrl other same, if_neg request, if_pos release,
          locApiServerIfReleaseHandler]
      rw [Received.Determines.congr reaches, Received.determines_handler_iff]
      exact ⟨fun h _ => h, fun h => h (.inr release)⟩
    · refine iff_of_true (fun other same => ?_) ?_
      · simp only [locApiServerProc, ctrl other same, if_neg request, if_neg release]
      · rintro (⟨asked, -⟩ | released)
        · exact absurd asked request
        · exact absurd released release

/-- GPSONE_LOC_API_IF_REQUEST in 13 bytes: all that the handler reads is missing. -/
def bareRequest : List UInt8 := [13, 0, 0, 0, 0, 0, 0, 0, 0, 0, 0, 0, 0xF0]

/-- Memory in which a text lies where the ssid is going to be. -/
def staleText : Buffer := fun i => if i = 44 then 0x41 else 0

open Server Runs in
/-- The same message is received twice, and asks for two different networks. -/
theorem stale_memory_becomes_a_request : ∃ s t first second,
    Run step initial [.send bareRequest, .read fun _ => 0, .read fun _ => 0] s ∧
    Run step initial [.send bareRequest, .read staleText, .read fun _ => 0] t ∧
    s.handled = [first] ∧ t.handled = [second] ∧ first.bytes = bareRequest ∧
    second.bytes = bareRequest ∧
    locApiServerProc true first.p_cmsgbuf = .sent (.wifi .supl .quipc [] [] true) ∧
    locApiServerProc true second.p_cmsgbuf = .sent (.wifi .supl .quipc [0x41] [] true) := by
  refine ⟨_, _, _, _, run_iff_foldlM.mpr (rfl : List.foldlM step _ _ = some _),
    run_iff_foldlM.mpr (rfl : List.foldlM step _ _ = some _), rfl, rfl, ?_, ?_, ?_, ?_⟩
  · decide
  · decide
  · decide
  · decide

end Msm8974.DmnConn
