import Mathlib.Data.List.Induction
import Msm8974.Camerawrapper.FixedSetParams

/-!
Which sequences of calls leave alone what is freed: the devices, their operations and the strings
of fixed_set_params. Closing one camera frees the strings of all of them, so what stays in the
array dangles until an open replaces the array. The sequences are judged by the calls alone.
-/

namespace Msm8974.Camerawrapper
open Msm8974.Traces Wrapper

/-- The call assigns fixed_set_params. -/
def Call.Replaces : Call → Prop
  | .open _ .noVendorModule => False
  | .open .. => True
  | _ => False

def Call.Allocates : Call → Prop
  | .open _ .noVendorModule | .open _ .noArray => False
  | .open .. => True
  | _ => False

def Call.Loses : Call → Prop
  | .open _ .noArray => True
  | _ => False

/-- The cameras of the devices that the calls have handed out, `none` once a device is closed. -/
def devicesAfter (num_cameras : Nat) (devices : List (Option Int)) : Call → List (Option Int)
  | .open cameraid .opened =>
      if cameraid > num_cameras then devices else devices ++ [some cameraid]
  | .close d => devices.set d none
  | .open .. | .setParameters .. => devices

def devicesOf (num_cameras : Nat) (log : List Call) : List (Option Int) :=
  log.foldl (devicesAfter num_cameras) []

/-- The camera of a device that is open. -/
def cameraOf (num_cameras : Nat) (log : List Call) (d : Nat) : Option Int :=
  ((devicesOf num_cameras log)[d]?).join

/-- The call sets the parameters of the camera through a device that is open. -/
def Sets (num_cameras : Nat) (id : Int) (before : List Call) (c : Call) : Prop :=
  ∃ d settings, c = .setParameters d settings ∧ cameraOf num_cameras before d = some id

/-- The array has a string for the camera, allocated or not. -/
def Used (num_cameras : Nat) (id : Int) (log : List Call) : Prop :=
  SinceAt (Sets num_cameras id) Call.Replaces log

/-- The string of the camera has been freed by a close and is still in the array. -/
def Dangling (num_cameras : Nat) (id : Int) (log : List Call) : Prop :=
  SinceAt (fun before c => (∃ d, c = .close d) ∧ Used num_cameras id before) Call.Replaces log

def ArrayReady (log : List Call) : Prop := Since Call.Allocates Call.Loses log

/-- The call stays within the memory that it owns. -/
def Admissible (num_cameras : Nat) (before : List Call) : Call → Prop
  | .open .. => True
  | .setParameters d settings =>
      ∃ id, cameraOf num_cameras before d = some id ∧ ArrayReady before ∧ 0 ≤ id ∧
        id < num_cameras ∧ ¬ Dangling num_cameras id before ∧
        (videoMode settings = true → settings CameraParameters.KEY_VIDEO_SIZE ≠ none)
  | .close d =>
      (cameraOf num_cameras before d).isSome ∧
        (num_cameras = 0 ∨ ArrayReady before ∧ ∀ id, ¬ Dangling num_cameras id before)

section Logs

variable {num_cameras : Nat} {log : List Call} {c : Call} {id : Int}

theorem devices_concat : devicesOf num_cameras (log ++ [c]) =
    devicesAfter num_cameras (devicesOf num_cameras log) c := by
  simp [devicesOf]

theorem used_concat : Used num_cameras id (log ++ [c]) ↔
    Sets num_cameras id log c ∨ Used num_cameras id log ∧ ¬ c.Replaces :=
  sinceAt_concat

theorem dangling_concat : Dangling num_cameras id (log ++ [c]) ↔
    ((∃ d, c = .close d) ∧ Used num_cameras id log) ∨
      Dangling num_cameras id log ∧ ¬ c.Replaces :=
  sinceAt_concat

theorem arrayReady_concat : ArrayReady (log ++ [c]) ↔ c.Allocates ∨ ArrayReady log ∧ ¬ c.Loses :=
  since_concat

theorem Dangling.used (h : Dangling num_cameras id log) : Used num_cameras id log := by
  induction log using List.reverseRecOn with
  | nil => exact (not_sinceAt_nil _ _ h).elim
  | append_singleton log c ih =>
      rcases dangling_concat.mp h with ⟨⟨d, rfl⟩, used⟩ | ⟨before, kept⟩
      · exact used_concat.mpr (.inr ⟨used, not_false⟩)
      · exact used_concat.mpr (.inr ⟨ih before, kept⟩)

end Logs

namespace Wrapper

/-- The entry of the array at a camera's place. -/
def entry (w : Wrapper) (i : Nat) : Option Nat := do
  let array ← w.fixed_set_params
  let entry ← array[i]?
  entry

variable {num_cameras : Nat} {w w' : Wrapper} {log : List Call} {c : Call}

/-- The strings that the wrapper holds after a sequence of calls. -/
structure Owns (num_cameras : Nat) (w : Wrapper) (log : List Call) : Prop where
  array : ∀ array, w.fixed_set_params = some array → array.length = num_cameras
  ready : w.fixed_set_params.isSome ↔ ArrayReady log
  used : ∀ id, Used num_cameras id log → 0 ≤ id ∧ id < num_cameras ∧ (w.entry id.toNat).isSome
  unused : ∀ i p, w.entry i = some p → Used num_cameras i log
  distinct : ∀ i j p, w.entry i = some p → w.entry j = some p → i = j
  live : ∀ i p, w.entry i = some p → ((w.strings p).isSome ↔ ¬ Dangling num_cameras i log)
  below : ∀ i p, w.entry i = some p → p < w.fresh
  unborn : ∀ p, w.fresh ≤ p → w.strings p = none

theorem Owns.initial : Owns num_cameras initial [] where
  array := by simp [Wrapper.initial]
  ready := by simp [Wrapper.initial, ArrayReady, not_since_nil]
  used := fun id used => (not_sinceAt_nil _ _ used).elim
  unused := by simp [Wrapper.initial, entry]
  distinct := by simp [Wrapper.initial, entry]
  live := by simp [Wrapper.initial, entry]
  below := by simp [Wrapper.initial, entry]
  unborn := fun _ _ => rfl

theorem cameraDeviceOpen_fields (w : Wrapper) (cameraid : Int) (opening : Opening) :
    (cameraDeviceOpen num_cameras w cameraid opening).1.strings = w.strings ∧
      (cameraDeviceOpen num_cameras w cameraid opening).1.fresh = w.fresh ∧
      (cameraDeviceOpen num_cameras w cameraid opening).1.fixed_set_params =
        match opening with
        | .noVendorModule => w.fixed_set_params
        | .noArray => none
        | _ => some (List.replicate num_cameras none) := by
  cases opening with
  | noVendorModule | noArray => exact ⟨rfl, rfl, rfl⟩
  | noDevice | vendorFails | noOps | opened =>
      unfold cameraDeviceOpen
      dsimp only
      split
      · exact ⟨rfl, rfl, rfl⟩
      · exact ⟨rfl, rfl, rfl⟩

theorem entry_replicate (assigned : w.fixed_set_params = some (List.replicate num_cameras none))
    (i : Nat) : w.entry i = none := by
  simp only [entry, assigned, Option.bind_eq_bind, Option.bind_some, List.getElem?_replicate]
  split <;> rfl

/-- A new array, or none, has no entries. -/
theorem Owns.replaced (h : Owns num_cameras w log) (replaces : c.Replaces)
    (no_entry : ∀ i, w'.entry i = none) (strings : w'.strings = w.strings)
    (fresh : w'.fresh = w.fresh)
    (array : ∀ array, w'.fixed_set_params = some array → array.length = num_cameras)
    (ready : w'.fixed_set_params.isSome ↔ ArrayReady (log ++ [c])) :
    Owns num_cameras w' (log ++ [c]) where
  array := array
  ready := ready
  used := by
    intro id used
    rcases used_concat.mp used with ⟨d, settings, rfl, -⟩ | ⟨-, kept⟩
    · cases replaces
    · exact (kept replaces).elim
  unused := by simp [no_entry]
  distinct := by simp [no_entry]
  live := by simp [no_entry]
  below := by simp [no_entry]
  unborn := by
    rw [strings, fresh]
    exact h.unborn

/-- A call that leaves the strings and their history as they are. -/
theorem Owns.kept (h : Owns num_cameras w log)
    (used : ∀ id, Used num_cameras id (log ++ [c]) ↔ Used num_cameras id log)
    (dangling : ∀ id, Dangling num_cameras id (log ++ [c]) ↔ Dangling num_cameras id log)
    (ready : ArrayReady (log ++ [c]) ↔ ArrayReady log) : Owns num_cameras w (log ++ [c]) where
  array := h.array
  ready := h.ready.trans ready.symm
  used := fun id now => h.used id ((used id).mp now)
  unused := fun i p at_i => (used i).mpr (h.unused i p at_i)
  distinct := h.distinct
  live := fun i p at_i => (h.live i p at_i).trans (not_congr (dangling i).symm)
  below := h.below
  unborn := h.unborn

theorem Owns.opened (h : Owns num_cameras w log) (cameraid : Int) (opening : Opening) :
    Owns num_cameras (cameraDeviceOpen num_cameras w cameraid opening).1
      (log ++ [.open cameraid opening]) := by
  obtain ⟨strings, fresh, array⟩ :=
    @cameraDeviceOpen_fields num_cameras w cameraid opening
  cases opening with
  | noVendorModule =>
      refine h.kept (fun id => ?_) (fun id => ?_) ?_
      · simp [used_concat, Sets, Call.Replaces]
      · simp [dangling_concat, Call.Replaces]
      · simp [arrayReady_concat, Call.Allocates, Call.Loses]
  | noArray =>
      refine h.replaced trivial (fun i => rfl) strings fresh (by simp [array]) ?_
      simp [arrayReady_concat, Call.Allocates, Call.Loses, array]
  | noDevice | vendorFails | noOps | opened =>
      refine h.replaced trivial (entry_replicate array) strings fresh (by simp [array]) ?_
      simp [arrayReady_concat, Call.Allocates, array]

theorem fixupSetparams_isSome (id : Int) {settings : CameraParameters} :
    (fixupSetparams id settings).isSome ↔
      (videoMode settings = true → settings CameraParameters.KEY_VIDEO_SIZE ≠ none) := by
  have size : exposureFromShutter settings CameraParameters.KEY_VIDEO_SIZE =
      settings CameraParameters.KEY_VIDEO_SIZE := by
    cases shutter : settings KEY_SHUTTER_SPEED with
    | none => simp [exposureFromShutter, shutter]
    | some speed =>
        simp only [exposureFromShutter, shutter]
        exact if_neg (by decide)
  by_cases video : videoMode settings = true
  · simp only [fixupSetparams, video]
    cases video_size : settings CameraParameters.KEY_VIDEO_SIZE <;> simp [size, video_size]
  · simp [fixupSetparams, video]

theorem freeEntry_eq_some {e : Option Nat} : w.freeEntry e = some w' ↔
    (∀ p, e = some p → (w.strings p).isSome) ∧
      w' = { w with strings := fun q => if e = some q then none else w.strings q } := by
  cases e with
  | none =>
      refine ⟨fun freed => ⟨by simp, (Option.some.inj freed).symm⟩, fun ⟨_, same⟩ => ?_⟩
      exact congrArg some same.symm
  | some p =>
      have update : Function.update w.strings p none =
          fun q => if some p = some q then none else w.strings q := by
        funext q
        by_cases same : p = q
        · simp [same]
        · simp [same, Ne.symm same]
      simp only [freeEntry, free, update, Option.some.injEq, forall_eq']
      split
      case isTrue allocated =>
        exact ⟨fun freed => ⟨allocated, (Option.some.inj freed).symm⟩,
          fun ⟨_, same⟩ => congrArg some same.symm⟩
      case isFalse gone => simp [gone]

theorem cameraFixupSetparams_eq_some {id : Int} {settings : CameraParameters} {p : Nat} :
    w.cameraFixupSetparams id settings = some (w', p) ↔ ∃ params array e w₁,
      fixupSetparams id settings = some params ∧ w.fixed_set_params = some array ∧ 0 ≤ id ∧
        array[id.toNat]? = some e ∧ w.freeEntry e = some w₁ ∧ p = w₁.fresh ∧
        w' = { w₁ with
          strings := Function.update w₁.strings w₁.fresh (some params)
          fresh := w₁.fresh + 1
          fixed_set_params := some (array.set id.toNat (some w₁.fresh)) } := by
  constructor
  · intro called
    simp only [cameraFixupSetparams, Option.bind_eq_bind, Option.bind_eq_some_iff] at called
    obtain ⟨params, fixed, array, ready, called⟩ := called
    split at called
    case isTrue => cases called
    case isFalse nonneg =>
      simp only [Option.bind_eq_some_iff] at called
      obtain ⟨e, at_id, w₁, freed, called⟩ := called
      obtain ⟨rfl, rfl⟩ := Prod.mk.inj (Option.some.inj called)
      exact ⟨params, array, e, w₁, fixed, ready, by omega, at_id, freed, by simp, rfl⟩
  · rintro ⟨params, array, e, w₁, fixed, ready, nonneg, at_id, freed, rfl, rfl⟩
    have not_negative : ¬ id < 0 := by omega
    simp [cameraFixupSetparams, fixed, ready, not_negative, at_id, freed]

theorem entry_eq {array : List (Option Nat)} (ready : w.fixed_set_params = some array) {i : Nat}
    {e : Option Nat} (at_i : array[i]? = some e) : w.entry i = e := by
  simp [entry, ready, at_i]

theorem Owns.freed (h : Owns num_cameras w log) {i : Nat} {e : Option Nat} (at_i : w.entry i = e) :
    (∀ p, e = some p → (w.strings p).isSome) ↔ ¬ Dangling num_cameras i log := by
  cases e with
  | none =>
      refine iff_of_true (by simp) fun dangling => ?_
      have := (h.used i dangling.used).2.2
      simp [at_i] at this
  | some p => simpa using h.live i p at_i

theorem Owns.fixupSetparams_iff (h : Owns num_cameras w log) (id : Int)
    (settings : CameraParameters) : (w.cameraFixupSetparams id settings).isSome ↔
      ArrayReady log ∧ 0 ≤ id ∧ id < num_cameras ∧ ¬ Dangling num_cameras id log ∧
        (videoMode settings = true → settings CameraParameters.KEY_VIDEO_SIZE ≠ none) := by
  rw [← fixupSetparams_isSome id, ← h.ready]
  constructor
  · intro called
    obtain ⟨⟨w', p⟩, called⟩ := Option.isSome_iff_exists.mp called
    obtain ⟨params, array, e, w₁, fixed, ready, nonneg, at_id, freed, -⟩ :=
      cameraFixupSetparams_eq_some.mp called
    obtain ⟨inside, -⟩ := List.getElem?_eq_some_iff.mp at_id
    rw [h.array array ready] at inside
    have alive := (h.freed (entry_eq ready at_id)).mp (freeEntry_eq_some.mp freed).1
    rw [Int.toNat_of_nonneg nonneg] at alive
    exact ⟨by simp [ready], nonneg, by omega, alive, by simp [fixed]⟩
  · rintro ⟨ready, nonneg, inside, alive, fixed⟩
    obtain ⟨array, ready⟩ := Option.isSome_iff_exists.mp ready
    obtain ⟨params, fixed⟩ := Option.isSome_iff_exists.mp fixed
    have within : id.toNat < array.length := by
      rw [h.array array ready]
      omega
    have at_id := List.getElem?_eq_getElem within
    rw [← Int.toNat_of_nonneg nonneg] at alive
    have freed := freeEntry_eq_some.mpr ⟨(h.freed (entry_eq ready at_id)).mpr alive, rfl⟩
    exact Option.isSome_iff_exists.mpr ⟨_, cameraFixupSetparams_eq_some.mpr
      ⟨params, array, _, _, fixed, ready, nonneg, at_id, freed, rfl, rfl⟩⟩

/-- A new string takes the place of the one that is freed. -/
theorem Owns.stored (h : Owns num_cameras w log) {k d : Nat} {settings : CameraParameters}
    (params : CameraParameters) (camera : cameraOf num_cameras log d = some (k : Int))
    (inside : k < num_cameras) (alive : ¬ Dangling num_cameras k log)
    (ready : w.fixed_set_params.isSome)
    (array : ∃ array, w'.fixed_set_params = some array ∧ array.length = num_cameras)
    (entries : ∀ i, w'.entry i = if i = k then some w.fresh else w.entry i)
    (strings : ∀ q, w'.strings q = if q = w.fresh then some params
      else if w.entry k = some q then none else w.strings q)
    (fresh : w'.fresh = w.fresh + 1) :
    Owns num_cameras w' (log ++ [.setParameters d settings]) := by
  have used_iff (id : Int) : Used num_cameras id (log ++ [.setParameters d settings]) ↔
      (k : Int) = id ∨ Used num_cameras id log := by
    simp [used_concat, Sets, Call.Replaces, camera]
  have dangling_iff (id : Int) : Dangling num_cameras id (log ++ [.setParameters d settings]) ↔
      Dangling num_cameras id log := by
    simp [dangling_concat, Call.Replaces]
  obtain ⟨array, assigned, length⟩ := array
  constructor
  case array =>
    intro other same
    obtain rfl := Option.some.inj (assigned.symm.trans same)
    exact length
  case ready =>
    have before := h.ready.mp ready
    simp [assigned, arrayReady_concat, Call.Loses, before]
  case used =>
    intro id used
    rcases (used_iff id).mp used with rfl | used
    · exact ⟨by omega, by omega, by simp [entries]⟩
    · obtain ⟨low, high, present⟩ := h.used id used
      refine ⟨low, high, ?_⟩
      rw [entries]
      split
      · rfl
      · exact present
  case unused =>
    intro i p at_i
    rw [entries] at at_i
    split at at_i
    case isTrue same => exact (used_iff i).mpr (.inl (congrArg Nat.cast same.symm))
    case isFalse => exact (used_iff i).mpr (.inr (h.unused i p at_i))
  case distinct =>
    intro i j p at_i at_j
    have low (i : Nat) (at_i : w.entry i = some w.fresh) : False :=
      Nat.lt_irrefl _ (h.below i w.fresh at_i)
    rw [entries] at at_i at_j
    split at at_i <;> split at at_j
    · omega
    · exact (low j (at_j.trans at_i.symm)).elim
    · exact (low i (at_i.trans at_j.symm)).elim
    · exact h.distinct i j p at_i at_j
  case live =>
    intro i p at_i
    rw [dangling_iff, strings]
    rw [entries] at at_i
    split at at_i
    case isTrue same =>
      obtain rfl := Option.some.inj at_i
      simp [same, alive]
    case isFalse other =>
      have old : p ≠ w.fresh := Nat.ne_of_lt (h.below i p at_i)
      have kept : w.entry k ≠ some p := fun at_k => other (h.distinct i k p at_i at_k)
      rw [if_neg old, if_neg kept]
      exact h.live i p at_i
  case below =>
    intro i p at_i
    rw [entries] at at_i
    rw [fresh]
    split at at_i
    case isTrue => exact Option.some.inj at_i ▸ Nat.lt_succ_self _
    case isFalse => exact Nat.lt_succ_of_lt (h.below i p at_i)
  case unborn =>
    intro p later
    rw [strings, if_neg (by omega)]
    split
    · rfl
    · exact h.unborn p (by omega)

theorem Owns.fixupSetparams (h : Owns num_cameras w log) {id : Int} {d p : Nat}
    {settings : CameraParameters} (camera : cameraOf num_cameras log d = some id)
    (called : w.cameraFixupSetparams id settings = some (w', p)) :
    Owns num_cameras w' (log ++ [.setParameters d settings]) := by
  obtain ⟨params, array, e, w₁, -, ready, nonneg, at_id, freed, rfl, rfl⟩ :=
    cameraFixupSetparams_eq_some.mp called
  obtain ⟨k, rfl⟩ := Int.eq_ofNat_of_zero_le nonneg
  rw [Int.toNat_natCast] at at_id
  obtain ⟨inside, -⟩ := List.getElem?_eq_some_iff.mp at_id
  obtain ⟨allocated, rfl⟩ := freeEntry_eq_some.mp freed
  refine h.stored params camera (h.array array ready ▸ inside)
    ((h.freed (entry_eq ready at_id)).mp allocated) (by simp [ready])
    ⟨_, rfl, by simp [h.array array ready]⟩ (fun i => ?_) (fun q => ?_) rfl
  · simp only [entry, Int.toNat_natCast, Option.bind_eq_bind, Option.bind_some,
      List.getElem?_set, ready]
    by_cases same : k = i
    · simp [same, same ▸ inside]
    · simp [same, Ne.symm same]
  · rw [entry_eq ready at_id]
    exact Function.update_apply ..

/-- The loop of camera_device_close up to a camera. -/
theorem Owns.closing (h : Owns num_cameras w log) {array : List (Option Nat)}
    (ready : w.fixed_set_params = some array) {k : Nat} (most : k ≤ num_cameras) :
    (List.range k).foldlM closeTurn w = some w' ↔
      (∀ i < k, ∀ p, w.entry i = some p → (w.strings p).isSome) ∧
      w' = { w with strings := fun q =>
        if ∃ i < k, w.entry i = some q then none else w.strings q } := by
  induction k generalizing w' with
  | zero => simpa using eq_comm
  | succ k ih =>
      have inside : k < array.length := by
        rw [h.array array ready]
        exact most
      have at_k := entry_eq ready (List.getElem?_eq_getElem inside)
      have apart (p : Nat) (present : array[k] = some p) : ¬ ∃ i < k, w.entry i = some p := by
        rintro ⟨i, lower, at_i⟩
        have := h.distinct i k p at_i (at_k.trans present)
        omega
      have merged (q : Nat) : (if array[k] = some q then none
          else if ∃ i < k, w.entry i = some q then none else w.strings q) =
            if ∃ i < k + 1, w.entry i = some q then none else w.strings q := by
        by_cases here : array[k] = some q
        · have some_entry : ∃ i < k + 1, w.entry i = some q :=
            ⟨k, Nat.lt_succ_self k, at_k.trans here⟩
          rw [if_pos here, if_pos some_entry]
        · have same : (∃ i < k + 1, w.entry i = some q) ↔ ∃ i < k, w.entry i = some q := by
            rw [Nat.exists_lt_succ_right, at_k, or_iff_left here]
          rw [if_neg here]
          simp only [same]
      rw [List.range_succ, List.foldlM_append]
      simp only [Option.bind_eq_bind, Option.bind_eq_some_iff, ih (Nat.le_of_succ_le most),
        List.foldlM_cons, List.foldlM_nil]
      constructor
      · rintro ⟨w₁, ⟨allocated, rfl⟩, w₂, turned, last⟩
        obtain rfl := Option.some.inj last
        simp only [closeTurn, ready, List.getElem?_eq_getElem inside, Option.bind_eq_bind,
          Option.bind_some] at turned
        obtain ⟨here, rfl⟩ := freeEntry_eq_some.mp turned
        refine ⟨fun i lower p at_i => ?_, ?_⟩
        · obtain lower | rfl := Nat.lt_succ_iff_lt_or_eq.mp lower
          · exact allocated i lower p at_i
          · have present := at_k.symm.trans at_i
            simpa [apart p present] using here p present
        · simp only [merged, ready]
      · rintro ⟨allocated, rfl⟩
        refine ⟨_, ⟨fun i lower => allocated i (Nat.lt_succ_of_lt lower), rfl⟩, _, ?_, rfl⟩
        simp only [closeTurn, ready, List.getElem?_eq_getElem inside, Option.bind_eq_bind,
          Option.bind_some]
        refine freeEntry_eq_some.mpr ⟨fun p present => ?_, ?_⟩
        · simpa [apart p present] using
            allocated k (Nat.lt_succ_self k) p (at_k.trans present)
        · simp only [merged]

theorem freeStrings_not_ready (missing : w.fixed_set_params = none) :
    w.freeStrings num_cameras = if num_cameras = 0 then some w else none := by
  cases num_cameras with
  | zero => rfl
  | succ n => simp [freeStrings, List.range_succ_eq_map, closeTurn, missing]

theorem Owns.freeStrings_devices (h : Owns num_cameras w log)
    (freed : w.freeStrings num_cameras = some w') :
    w'.camera_devices = w.camera_devices ∧ w'.camera_ops = w.camera_ops := by
  cases ready : w.fixed_set_params with
  | none =>
      rw [freeStrings_not_ready ready] at freed
      split at freed
      · obtain rfl := Option.some.inj freed
        exact ⟨rfl, rfl⟩
      · cases freed
  | some array =>
      obtain ⟨-, rfl⟩ := (h.closing ready (Nat.le_refl _)).mp freed
      exact ⟨rfl, rfl⟩

theorem Owns.freeStrings_iff (h : Owns num_cameras w log) :
    (w.freeStrings num_cameras).isSome ↔
      (num_cameras = 0 ∨ ArrayReady log ∧ ∀ id, ¬ Dangling num_cameras id log) := by
  rw [← h.ready]
  cases ready : w.fixed_set_params with
  | none =>
      rw [freeStrings_not_ready ready]
      split <;> simp_all
  | some array =>
      have freed : (w.freeStrings num_cameras).isSome ↔
          ∀ i < num_cameras, ∀ p, w.entry i = some p → (w.strings p).isSome := by
        rw [Option.isSome_iff_exists, freeStrings]
        simp [h.closing ready (Nat.le_refl _)]
      rw [freed]
      constructor
      · intro allocated
        refine .inr ⟨rfl, fun id dangling => ?_⟩
        obtain ⟨low, high, present⟩ := h.used id dangling.used
        obtain ⟨p, at_id⟩ := Option.isSome_iff_exists.mp present
        have alive := (h.live _ p at_id).mp (allocated _ (by omega) p at_id)
        rw [Int.toNat_of_nonneg low] at alive
        exact alive dangling
      · rintro (none_at_all | ⟨-, alive⟩) i inside p at_i
        · omega
        · exact (h.live i p at_i).mpr (alive i)

theorem Owns.freeStrings (h : Owns num_cameras w log) (d : Nat)
    (freed : w.freeStrings num_cameras = some w') :
    Owns num_cameras w' (log ++ [.close d]) := by
  have used_iff (id : Int) : Used num_cameras id (log ++ [.close d]) ↔
      Used num_cameras id log := by
    simp [used_concat, Sets, Call.Replaces]
  have dangling_iff (id : Int) : Dangling num_cameras id (log ++ [.close d]) ↔
      Used num_cameras id log := by
    simpa [dangling_concat, Call.Replaces] using Dangling.used
  have ready_iff : ArrayReady (log ++ [.close d]) ↔ ArrayReady log := by
    simp [arrayReady_concat, Call.Allocates, Call.Loses]
  cases ready : w.fixed_set_params with
  | none =>
      rw [freeStrings_not_ready ready] at freed
      split at freed
      case isTrue none_at_all =>
        obtain rfl := Option.some.inj freed
        refine h.kept used_iff (fun id => (dangling_iff id).trans ?_) ready_iff
        refine iff_of_false (fun used => ?_) fun dangling => ?_
        · have := h.used id used
          omega
        · have := h.used id dangling.used
          omega
      case isFalse => cases freed
  | some array =>
      obtain ⟨-, rfl⟩ := (h.closing ready (Nat.le_refl _)).mp freed
      constructor
      case array => exact h.array
      case ready => exact h.ready.trans ready_iff.symm
      case used => exact fun id used => h.used id ((used_iff id).mp used)
      case unused => exact fun i p at_i => (used_iff i).mpr (h.unused i p at_i)
      case distinct => exact h.distinct
      case below => exact h.below
      case live =>
        intro i p at_i
        have used := h.unused i p at_i
        have inside := (h.used i used).2.1
        have some_entry : ∃ i < num_cameras, w.entry i = some p := ⟨i, by omega, at_i⟩
        simp [dangling_iff, used, some_entry]
      case unborn =>
        intro p later
        simp [h.unborn p later]

/-- The devices that the wrapper holds after a sequence of calls. -/
structure Holds (num_cameras : Nat) (w : Wrapper) (log : List Call) : Prop where
  cameras : w.camera_devices.map (Option.map WrapperCameraDevice.id) = devicesOf num_cameras log
  ops : ∀ d device, w.device d = some device → device.ops = d
  allocated : ∀ p, w.camera_ops p = (w.device p).isSome

theorem Holds.initial : Holds num_cameras initial [] where
  cameras := rfl
  ops := by simp [device, Wrapper.initial]
  allocated := by simp [device, Wrapper.initial]

theorem Holds.camera (h : Holds num_cameras w log) (d : Nat) :
    (w.device d).map WrapperCameraDevice.id = cameraOf num_cameras log d := by
  rw [cameraOf, ← h.cameras, List.getElem?_map, device]
  cases w.camera_devices[d]? with
  | none => rfl
  | some entry => rfl

theorem Holds.kept (h : Holds num_cameras w log)
    (cameras : devicesOf num_cameras (log ++ [c]) = devicesOf num_cameras log)
    (same : w'.camera_devices = w.camera_devices) (ops : w'.camera_ops = w.camera_ops) :
    Holds num_cameras w' (log ++ [c]) where
  cameras := by rw [same, cameras, h.cameras]
  ops := by
    simp only [device, same]
    exact h.ops
  allocated := by
    simp only [device, same, ops]
    exact h.allocated

theorem device_handOut (w : Wrapper) (cameraid : Int) (d : Nat) :
    (w.handOut cameraid).device d = if d = w.camera_devices.length then
      some ⟨cameraid, w.camera_devices.length⟩ else w.device d := by
  rw [device, handOut, List.getElem?_append]
  by_cases before : d < w.camera_devices.length
  · rw [if_pos before, if_neg (Nat.ne_of_lt before), device]
  · rw [if_neg before]
    by_cases last : d = w.camera_devices.length
    · simp [last]
    · have beyond : w.camera_devices[d]? = none := List.getElem?_eq_none (by omega)
      have outside : d - w.camera_devices.length ≠ 0 := by omega
      simp [last, device, beyond, outside]

theorem Holds.handOut (h : Holds num_cameras w log) {cameraid : Int}
    (cameras : devicesOf num_cameras (log ++ [c]) = devicesOf num_cameras log ++ [some cameraid]) :
    Holds num_cameras (w.handOut cameraid) (log ++ [c]) where
  cameras := by
    rw [cameras, ← h.cameras, Wrapper.handOut, List.map_append]
    rfl
  ops := by
    intro d other handed
    rw [device_handOut] at handed
    split at handed
    case isTrue last =>
      obtain rfl := Option.some.inj handed
      exact last.symm
    case isFalse => exact h.ops d other handed
  allocated := by
    intro p
    rw [device_handOut]
    refine (Function.update_apply ..).trans ?_
    split
    · rfl
    · exact h.allocated p

theorem Holds.opened (h : Holds num_cameras w log) (cameraid : Int) (opening : Opening) :
    Holds num_cameras (cameraDeviceOpen num_cameras w cameraid opening).1
      (log ++ [.open cameraid opening]) := by
  cases opening with
  | noVendorModule | noArray => exact h.kept devices_concat rfl rfl
  | noDevice | vendorFails | noOps =>
      unfold cameraDeviceOpen
      dsimp only
      split
      · exact h.kept devices_concat rfl rfl
      · exact h.kept devices_concat rfl rfl
  | opened =>
      unfold cameraDeviceOpen
      dsimp only
      split
      case isTrue beyond => exact h.kept (devices_concat.trans (if_pos beyond)) rfl rfl
      case isFalse inside =>
        have same : Holds num_cameras
            { w with fixed_set_params := some (List.replicate num_cameras none) } log :=
          ⟨h.cameras, h.ops, h.allocated⟩
        exact same.handOut (devices_concat.trans (if_neg inside))

theorem freeDevice_eq_some {d : Nat} : w.freeDevice d = some w' ↔
    ∃ device, w.device d = some device ∧ w.camera_ops device.ops = true ∧ w' = { w with
      camera_devices := w.camera_devices.set d none
      camera_ops := Function.update w.camera_ops device.ops false } := by
  rw [freeDevice, Option.bind_eq_bind, Option.bind_eq_some_iff]
  refine exists_congr fun device => and_congr_right fun _ => ?_
  split
  case isTrue allocated => simp [allocated, eq_comm]
  case isFalse gone => simp [gone]

theorem Holds.freeDevice_iff (h : Holds num_cameras w log) (d : Nat) :
    (w.freeDevice d).isSome ↔ (cameraOf num_cameras log d).isSome := by
  rw [← h.camera, Option.isSome_map, Option.isSome_iff_exists, Option.isSome_iff_exists]
  constructor
  · rintro ⟨w', freed⟩
    obtain ⟨device, handed, -⟩ := freeDevice_eq_some.mp freed
    exact ⟨device, handed⟩
  · rintro ⟨device, handed⟩
    refine ⟨_, freeDevice_eq_some.mpr ⟨device, handed, ?_, rfl⟩⟩
    rw [h.ops d device handed, h.allocated, handed]
    rfl

theorem freeDevice_strings {d : Nat} (freed : w.freeDevice d = some w') :
    w'.strings = w.strings := by
  obtain ⟨gone, -, -, rfl⟩ := freeDevice_eq_some.mp freed
  rfl

theorem freeDevice_device {d : Nat} (freed : w.freeDevice d = some w') (e : Nat) :
    w'.device e = if e = d then none else w.device e := by
  obtain ⟨gone, -, -, rfl⟩ := freeDevice_eq_some.mp freed
  rw [device, List.getElem?_set]
  by_cases same : e = d
  · subst same
    simp only [if_true]
    split <;> rfl
  · rw [if_neg (Ne.symm same), if_neg same, device]

theorem Holds.freeDevice (h : Holds num_cameras w log) {d : Nat}
    (freed : w.freeDevice d = some w') : Holds num_cameras w' (log ++ [.close d]) := by
  have left := freeDevice_device freed
  obtain ⟨gone, handed, -, rfl⟩ := freeDevice_eq_some.mp freed
  constructor
  case cameras =>
    rw [devices_concat, devicesAfter, ← h.cameras, List.map_set]
    rfl
  case ops =>
    intro e other present
    rw [left] at present
    split at present
    · cases present
    · exact h.ops e other present
  case allocated =>
    intro p
    rw [left, h.ops d gone handed]
    refine (Function.update_apply ..).trans ?_
    split
    · rfl
    · exact h.allocated p

theorem Holds.setParameters_eq_some (h : Holds num_cameras w log) {d : Nat}
    {settings : CameraParameters} {result : Wrapper × Nat} :
    w.cameraSetParameters d settings = some result ↔ ∃ id, cameraOf num_cameras log d = some id ∧
      w.cameraFixupSetparams id settings = some result := by
  rw [← h.camera, cameraSetParameters, Option.bind_eq_bind, Option.bind_eq_some_iff]
  constructor
  · rintro ⟨device, handed, called⟩
    split at called
    · exact ⟨device.id, by rw [handed, Option.map_some], called⟩
    · cases called
  · rintro ⟨id, camera, called⟩
    obtain ⟨device, handed, rfl⟩ := Option.map_eq_some_iff.mp camera
    have allocated : w.camera_ops device.ops = true := by
      rw [h.ops d device handed, h.allocated, handed]
      rfl
    exact ⟨device, handed, (if_pos allocated).trans called⟩

/-- All that the wrapper holds after a sequence of calls. -/
structure Owned (num_cameras : Nat) (w : Wrapper) (log : List Call) : Prop where
  strings : Owns num_cameras w log
  devices : Holds num_cameras w log

theorem Owned.initial : Owned num_cameras initial [] := ⟨.initial, .initial⟩

theorem cameraDeviceClose_eq_some {d : Nat} : w.cameraDeviceClose num_cameras d = some w' ↔
    ∃ w₁, w.freeStrings num_cameras = some w₁ ∧ w₁.freeDevice d = some w' := by
  rw [cameraDeviceClose, Option.bind_eq_bind, Option.bind_eq_some_iff]

/-- The strings that a close frees leave the devices as they are. -/
theorem Owned.freeStrings (h : Owned num_cameras w log)
    (freed : w.freeStrings num_cameras = some w') : Holds num_cameras w' log := by
  obtain ⟨same, ops⟩ := h.strings.freeStrings_devices freed
  refine ⟨same ▸ h.devices.cameras, ?_, ?_⟩
  · simpa only [device, same] using h.devices.ops
  · simpa only [device, same, ops] using h.devices.allocated

theorem Owned.close_iff (h : Owned num_cameras w log) (d : Nat) :
    (w.cameraDeviceClose num_cameras d).isSome ↔ Admissible num_cameras log (.close d) := by
  rw [Admissible, ← h.strings.freeStrings_iff, Option.isSome_iff_exists]
  simp only [cameraDeviceClose_eq_some]
  constructor
  · rintro ⟨w', w₁, freed, closed⟩
    refine ⟨?_, freed ▸ rfl⟩
    rw [← (h.freeStrings freed).freeDevice_iff, closed]
    rfl
  · rintro ⟨camera, freed⟩
    obtain ⟨w₁, freed⟩ := Option.isSome_iff_exists.mp freed
    rw [← (h.freeStrings freed).freeDevice_iff] at camera
    obtain ⟨w', closed⟩ := Option.isSome_iff_exists.mp camera
    exact ⟨w', w₁, freed, closed⟩

/-- One spec lemma for a call: when it stays within its memory. -/
theorem Owned.step_iff (h : Owned num_cameras w log) (c : Call) :
    (step num_cameras w c).isSome ↔ Admissible num_cameras log c := by
  cases c with
  | «open» cameraid opening => exact iff_of_true rfl trivial
  | setParameters d settings =>
      rw [Wrapper.step, Option.isSome_map, Option.isSome_iff_exists]
      simp only [h.devices.setParameters_eq_some, Admissible, ← h.strings.fixupSetparams_iff]
      constructor
      · rintro ⟨result, id, camera, called⟩
        exact ⟨id, camera, by rw [called]; rfl⟩
      · rintro ⟨id, camera, called⟩
        obtain ⟨result, called⟩ := Option.isSome_iff_exists.mp called
        exact ⟨result, id, camera, called⟩
  | close d => exact h.close_iff d

/-- What a call leaves. -/
theorem Owned.step (h : Owned num_cameras w log)
    (called : Wrapper.step num_cameras w c = some w') : Owned num_cameras w' (log ++ [c]) := by
  cases c with
  | «open» cameraid opening =>
      obtain rfl := Option.some.inj called
      exact ⟨h.strings.opened cameraid opening, h.devices.opened cameraid opening⟩
  | setParameters d settings =>
      obtain ⟨⟨w'', p⟩, stored, rfl⟩ := Option.map_eq_some_iff.mp called
      obtain ⟨id, camera, fixed⟩ := h.devices.setParameters_eq_some.mp stored
      refine ⟨h.strings.fixupSetparams camera fixed, ?_⟩
      obtain ⟨params, array, e, w₁, -, -, -, -, freed, -, rfl⟩ :=
        cameraFixupSetparams_eq_some.mp fixed
      obtain ⟨-, rfl⟩ := freeEntry_eq_some.mp freed
      exact h.devices.kept devices_concat rfl rfl
  | close d =>
      obtain ⟨w₁, freed, closed⟩ := cameraDeviceClose_eq_some.mp called
      have left := h.strings.freeStrings d freed
      refine ⟨?_, (h.freeStrings freed).freeDevice closed⟩
      obtain ⟨device, -, -, rfl⟩ := freeDevice_eq_some.mp closed
      exact ⟨left.array, left.ready, left.used, left.unused, left.distinct, left.live, left.below,
        left.unborn⟩

theorem run_concat (w : Wrapper) (calls : List Call) (c : Call) :
    run num_cameras w (calls ++ [c]) = (run num_cameras w calls).bind (step num_cameras · c) := by
  simp [run, List.foldlM_append]

theorem owned_of_run {calls : List Call} (done : run num_cameras Wrapper.initial calls = some w) :
    Owned num_cameras w calls := by
  induction calls using List.reverseRecOn generalizing w with
  | nil =>
      obtain rfl := Option.some.inj done
      exact .initial
  | append_singleton calls c ih =>
      rw [run_concat] at done
      obtain ⟨w₁, before, called⟩ := Option.bind_eq_some_iff.mp done
      exact (ih before).step called

/-- A sequence of calls stays within its memory exactly if every call is admissible after those
before it: a device that is used or closed is one that an open has handed out and no close has
freed; an open has provided an array; the camera's id is below the number of cameras; no close has
freed what is freed now without an open in between; and a recording hint comes with a video
size. -/
theorem calls_keep_memory_iff (num_cameras : Nat) (calls : List Call) :
    (run num_cameras Wrapper.initial calls).isSome ↔ AtEach (Admissible num_cameras) calls := by
  induction calls using List.reverseRecOn with
  | nil => exact iff_of_true rfl (atEach_nil _)
  | append_singleton calls c ih =>
      rw [run_concat, atEach_concat, ← ih]
      cases done : run num_cameras Wrapper.initial calls with
      | none => simp
      | some w => simpa using (owned_of_run done).step_iff c

example : run 1 Wrapper.initial [.open 0 .opened, .close 0, .close 0] = none := rfl

/-- Nothing is allocated but the array. -/
structure Empty (w : Wrapper) : Prop where
  strings : ∀ p, w.strings p = none
  devices : ∀ d, w.device d = none
  ops : ∀ p, w.camera_ops p = false

end Wrapper

/-- What the camera service does with one camera: an open, and if that hands out a device, settings
and a close. -/
structure Session where
  cameraid : Int
  opening : Opening
  settings : List CameraParameters

namespace Session

def handsOut (num_cameras : Nat) (s : Session) : Bool :=
  (cameraDeviceOpen num_cameras Wrapper.initial s.cameraid s.opening).2

/-- The calls of a session whose device gets the number `d`. -/
def calls (num_cameras d : Nat) (s : Session) : List Call :=
  .open s.cameraid s.opening ::
    if s.handsOut num_cameras then s.settings.map (.setParameters d) ++ [.close d] else []

/-- The camera exists, and a recording hint comes with a video size. -/
def Proper (num_cameras : Nat) (s : Session) : Prop :=
  s.handsOut num_cameras = true → 0 ≤ s.cameraid ∧ s.cameraid < num_cameras ∧
    ∀ settings ∈ s.settings,
      videoMode settings = true → settings CameraParameters.KEY_VIDEO_SIZE ≠ none

end Session

/-- The calls of sessions one after the other. -/
def sessionCalls (num_cameras : Nat) (log : List Call) (sessions : List Session) : List Call :=
  sessions.foldl (fun log s => log ++ s.calls num_cameras (devicesOf num_cameras log).length) log

namespace Wrapper

variable {num_cameras d : Nat} {w w' : Wrapper} {log : List Call} {id : Int}

/-- The device of the camera is the only one, the array has not lost a string since it was made,
and none of its strings has been freed. -/
structure Clean (num_cameras : Nat) (w : Wrapper) (log : List Call) (d : Nat) (id : Int) :
    Prop where
  owned : Owned num_cameras w log
  ready : ArrayReady log
  alive : ∀ id, ¬ Dangling num_cameras id log
  covered : ∀ p, (w.strings p).isSome → ∃ i, w.entry i = some p
  camera : cameraOf num_cameras log d = some id
  only : ∀ e, e ≠ d → w.device e = none

theorem Clean.setParameters (h : Clean num_cameras w log d id) {settings : CameraParameters}
    (inside : 0 ≤ id ∧ id < num_cameras) (complete : videoMode settings = true →
      settings CameraParameters.KEY_VIDEO_SIZE ≠ none) :
    ∃ w', step num_cameras w (.setParameters d settings) = some w' ∧
      Clean num_cameras w' (log ++ [.setParameters d settings]) d id := by
  have admissible : Admissible num_cameras log (.setParameters d settings) :=
    ⟨id, h.camera, h.ready, inside.1, inside.2, h.alive id, complete⟩
  obtain ⟨w', called⟩ := Option.isSome_iff_exists.mp ((h.owned.step_iff _).mpr admissible)
  have camera : cameraOf num_cameras (log ++ [.setParameters d settings]) d = some id := by
    rw [cameraOf, devices_concat]
    exact h.camera
  refine ⟨w', called, h.owned.step called, ?_, ?_, ?_, camera, ?_⟩
  · exact arrayReady_concat.mpr (.inr ⟨h.ready, not_false⟩)
  · intro other dangling
    rcases dangling_concat.mp dangling with ⟨⟨_, closes⟩, -⟩ | ⟨before, -⟩
    · cases closes
    · exact h.alive other before
  all_goals
    obtain ⟨⟨w'', p⟩, stored, rfl⟩ := Option.map_eq_some_iff.mp called
    obtain ⟨other, -, fixed⟩ := h.owned.devices.setParameters_eq_some.mp stored
    obtain ⟨params, array, e, w₁, -, ready, -, at_id, freed, rfl, rfl⟩ :=
      cameraFixupSetparams_eq_some.mp fixed
    obtain ⟨-, rfl⟩ := freeEntry_eq_some.mp freed
  · obtain ⟨within, -⟩ := List.getElem?_eq_some_iff.mp at_id
    intro q allocated
    by_cases new : q = w.fresh
    · exact ⟨other.toNat, by simp [entry, new, within]⟩
    · simp only [Function.update_of_ne new] at allocated
      split at allocated
      case isTrue => cases allocated
      case isFalse kept =>
        obtain ⟨i, at_i⟩ := h.covered q allocated
        have apart : other.toNat ≠ i := by
          rintro rfl
          exact kept ((entry_eq ready at_id).symm.trans at_i)
        refine ⟨i, ?_⟩
        rw [← at_i]
        simp [entry, ready, List.getElem?_set_ne apart]
  · exact h.only

/-- A close frees every string that its loop finds. -/
theorem Clean.freeStrings (h : Clean num_cameras w log d id)
    (freed : w.freeStrings num_cameras = some w') (p : Nat) : w'.strings p = none := by
  obtain ⟨array, ready⟩ := Option.isSome_iff_exists.mp (h.owned.strings.ready.mpr h.ready)
  obtain ⟨-, rfl⟩ := (h.owned.strings.closing ready (Nat.le_refl _)).mp freed
  cases allocated : w.strings p with
  | none => simp [allocated]
  | some params =>
      obtain ⟨i, at_i⟩ := h.covered p (by simp [allocated])
      have inside := (h.owned.strings.used i (h.owned.strings.unused i p at_i)).2.1
      exact if_pos ⟨i, by omega, at_i⟩

theorem Clean.close (h : Clean num_cameras w log d id) :
    ∃ w', step num_cameras w (.close d) = some w' ∧ w'.Empty := by
  have admissible : Admissible num_cameras log (.close d) :=
    ⟨by rw [h.camera]; rfl, .inr ⟨h.ready, h.alive⟩⟩
  obtain ⟨w', called⟩ := Option.isSome_iff_exists.mp ((h.owned.step_iff _).mpr admissible)
  have owned := h.owned.step called
  obtain ⟨w₁, freed, closed⟩ := cameraDeviceClose_eq_some.mp called
  have none_left (e : Nat) : w'.device e = none := by
    rw [freeDevice_device closed]
    split
    case isTrue => rfl
    case isFalse other =>
      rw [device, (h.owned.strings.freeStrings_devices freed).1]
      exact h.only e other
  refine ⟨w', called, fun p => ?_, none_left, fun p => ?_⟩
  · rw [freeDevice_strings closed]
    exact h.freeStrings freed p
  · rw [owned.devices.allocated, none_left]
    rfl

theorem Clean.settings (h : Clean num_cameras w log d id) (inside : 0 ≤ id ∧ id < num_cameras)
    {settings : List CameraParameters}
    (complete : ∀ s ∈ settings, videoMode s = true → s CameraParameters.KEY_VIDEO_SIZE ≠ none) :
    ∃ w', run num_cameras w (settings.map (.setParameters d)) = some w' ∧
      Clean num_cameras w' (log ++ settings.map (.setParameters d)) d id := by
  induction settings generalizing w log with
  | nil => exact ⟨w, rfl, by simpa using h⟩
  | cons s settings ih =>
      obtain ⟨w₁, first, clean⟩ := h.setParameters inside (complete s List.mem_cons_self)
      obtain ⟨w', rest, clean⟩ := ih clean fun s mem => complete s (List.mem_cons_of_mem _ mem)
      refine ⟨w', ?_, by simpa using clean⟩
      simpa [run, first] using rest

theorem run_append (w : Wrapper) (calls others : List Call) : run num_cameras w (calls ++ others) =
    (run num_cameras w calls).bind (run num_cameras · others) := by
  simp [run, List.foldlM_append]

theorem handsOut_iff {s : Session} : s.handsOut num_cameras = true ↔
    s.opening = .opened ∧ ¬ s.cameraid > num_cameras := by
  obtain ⟨cameraid, opening, settings⟩ := s
  rw [Session.handsOut]
  cases opening with
  | noVendorModule | noArray => simp [cameraDeviceOpen]
  | noDevice | vendorFails | noOps | opened =>
      unfold cameraDeviceOpen
      dsimp only
      split <;> simp_all

theorem not_handed_out {s : Session} (other : ¬ s.handsOut num_cameras = true) :
    (cameraDeviceOpen num_cameras w s.cameraid s.opening).1.camera_devices = w.camera_devices ∧
      (cameraDeviceOpen num_cameras w s.cameraid s.opening).1.camera_ops = w.camera_ops := by
  rw [handsOut_iff] at other
  cases opening : s.opening with
  | noVendorModule | noArray => exact ⟨rfl, rfl⟩
  | noDevice | vendorFails | noOps =>
      unfold cameraDeviceOpen
      dsimp only
      split
      · exact ⟨rfl, rfl⟩
      · exact ⟨rfl, rfl⟩
  | opened =>
      have beyond : s.cameraid > num_cameras := by simpa [opening] using other
      unfold cameraDeviceOpen
      dsimp only
      rw [if_pos beyond]
      exact ⟨rfl, rfl⟩

theorem Owned.opened_clean (h : Owned num_cameras w log) (empty : w.Empty) {s : Session}
    (handed : s.handsOut num_cameras = true) :
    Clean num_cameras (cameraDeviceOpen num_cameras w s.cameraid s.opening).1
      (log ++ [.open s.cameraid s.opening]) (devicesOf num_cameras log).length s.cameraid := by
  obtain ⟨cameraid, opening, settings⟩ := s
  obtain ⟨rfl, inside⟩ := handsOut_iff.mp handed
  have last : (devicesOf num_cameras log).length = w.camera_devices.length := by
    rw [← h.devices.cameras, List.length_map]
  refine ⟨h.step rfl, ?_, fun id dangling => ?_, fun p allocated => ?_, ?_, fun e other => ?_⟩
  · exact arrayReady_concat.mpr (.inl trivial)
  · rcases dangling_concat.mp dangling with ⟨⟨_, closes⟩, -⟩ | ⟨-, kept⟩
    · cases closes
    · exact kept trivial
  · rw [(cameraDeviceOpen_fields w cameraid .opened).1, empty.strings p] at allocated
    cases allocated
  · rw [cameraOf, devices_concat, devicesAfter, if_neg inside]
    simp
  · rw [last] at other
    unfold cameraDeviceOpen
    dsimp only
    rw [if_neg inside, device_handOut, if_neg other]
    exact empty.devices e

theorem Owned.session (h : Owned num_cameras w log) (empty : w.Empty) {s : Session}
    (proper : s.Proper num_cameras) : ∃ w', run num_cameras w
      (s.calls num_cameras (devicesOf num_cameras log).length) = some w' ∧ w'.Empty := by
  cases handed : s.handsOut num_cameras with
  | false =>
      have kept := not_handed_out (w := w) (by simp [handed] : ¬ s.handsOut num_cameras = true)
      refine ⟨_, by rw [Session.calls, if_neg (by simp [handed])]; rfl, ?_, ?_, ?_⟩
      · rw [(cameraDeviceOpen_fields w s.cameraid s.opening).1]
        exact empty.strings
      · simp only [device, kept.1]
        exact empty.devices
      · rw [kept.2]
        exact empty.ops
  | true =>
      obtain ⟨low, high, complete⟩ := proper handed
      obtain ⟨w₁, set, clean⟩ := (h.opened_clean empty handed).settings ⟨low, high⟩ complete
      obtain ⟨w', closed, freed⟩ := clean.close
      refine ⟨w', ?_, freed⟩
      rw [Session.calls, if_pos handed, ← List.cons_append, run_append]
      have opened : run num_cameras w (.open s.cameraid s.opening ::
          s.settings.map (.setParameters (devicesOf num_cameras log).length)) = some w₁ := by
        simpa [run, Wrapper.step] using set
      rw [opened]
      simpa [run] using closed

/-- Where cameras are opened, used and closed one after the other, nothing that is freed is ever
touched, and after the last session nothing is left allocated. -/
theorem sessions_free_every_string (num_cameras : Nat) (sessions : List Session)
    (proper : ∀ s ∈ sessions, s.Proper num_cameras) :
    ∃ w, run num_cameras Wrapper.initial (sessionCalls num_cameras [] sessions) = some w ∧
      w.Empty := by
  have general (log : List Call) (w : Wrapper) (done : run num_cameras Wrapper.initial log = some w)
      (empty : w.Empty) :
      ∃ w', run num_cameras Wrapper.initial (sessionCalls num_cameras log sessions) = some w' ∧
        w'.Empty := by
    induction sessions generalizing w log with
    | nil => exact ⟨w, done, empty⟩
    | cons s sessions ih =>
        obtain ⟨first, rest⟩ := List.forall_mem_cons.mp proper
        obtain ⟨w₁, called, empty⟩ := (owned_of_run done).session empty first
        refine ih rest _ w₁ ?_ empty
        rw [run_append, done]
        exact called
  exact general [] _ rfl ⟨fun _ => rfl, fun _ => rfl, fun _ => rfl⟩

/-- Photo mode and a recording in turn. -/
def twoSessions : List Session :=
  [⟨0, .opened, [fun k => if k = KEY_SHUTTER_SPEED then some "2000" else none]⟩,
    ⟨1, .vendorFails, []⟩,
    ⟨1, .opened, [fun k => if k = CameraParameters.KEY_RECORDING_HINT then some "true"
      else if k = CameraParameters.KEY_VIDEO_SIZE then some "3840x2160" else none]⟩]

theorem two_sessions_free_every_string :
    ∃ w, run 2 Wrapper.initial (sessionCalls 2 [] twoSessions) = some w ∧ w.Empty := by
  refine sessions_free_every_string 2 twoSessions ?_
  rintro s mem
  rcases List.mem_cons.mp mem with rfl | mem
  · exact fun _ => ⟨by decide, by decide, by simp; decide⟩
  · rcases List.mem_cons.mp mem with rfl | mem
    · exact fun handed => by cases handed
    · obtain rfl := List.mem_singleton.mp mem
      exact fun _ => ⟨by decide, by decide, by simp; decide⟩

end Wrapper

end Msm8974.Camerawrapper
