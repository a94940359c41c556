import Mathlib.Algebra.GroupWithZero.Nat
import Msm8974.Library.Fairness
import Msm8974.LocApi.ConfigAgreement

/-!
The configuration comes to rest. Each step of the worker, and each step of the caller within one of
its functions, leaves less to do, so that everything is processed after the last call and the last
restart of the modem.
-/

namespace Msm8974.Reinit
open ConfigUpdate (GpsConf ConfParam)
open Runs

inductive Party
  | worker
  /-- the caller in one of its functions -/
  | caller
  /-- calls of these functions and restarts of the modem -/
  | outside
deriving DecidableEq

def Label.party : Label → Party
  | .proc _ | .read | .send => .worker
  | .sendInit | .sendChange | .restore | .sendAvailable => .caller
  | .init | .parse _ | .setAvailable _ _ | .modemRestart => .outside

/-- The steps that a message leads to: an item of a reinit is read, queued and processed. -/
def LocMsg.work : LocMsg → Nat
  | .init | .up => 31
  | _ => 1

def Caller.work : Caller → Nat
  | .idle => 0
  | .initialising => 32
  | .sending _ rest => 2 * rest.length + 1
  | .available _ _ => 2

def World.work (w : World) : Nat :=
  w.caller.work + (w.msgs.map LocMsg.work).sum + (w.built.map (·.work + 1)).getD 0 +
    3 * w.todo.length

/-- Who can go on. -/
def World.helpful (w : World) : Party :=
  match w.caller with
  | .idle => .worker
  | _ => .caller

variable {w t : World} {l : Label}

section Work

theorem work_msg (w : World) (s : Item) : (w.msg s).work = 1 := by
  cases s with
  | _ => rfl

theorem work_change (conf : GpsConf) (p : ConfParam) :
    ((change conf p).map LocMsg.work).sum ≤ 1 := by
  cases p with
  | _ => simp [change, LocMsg.work]

theorem length_reinit_le (sap_conf : SapConf) : (reinit sap_conf).length ≤ 9 := by
  simp only [reinit, List.length_append]
  split
  · simp
  · simp

theorem work_proc (w : World) (added : BitVec 32) (msg : LocMsg) (done : w.todo = []) :
    (w.proc added msg).work < w.work + msg.work := by
  have few := length_reinit_le w.sap_conf
  cases msg with
  | init | up =>
      simp only [World.work, World.proc, LocMsg.work, done, List.length_append, List.length_cons,
        List.length_nil]
      omega
  | _ => exact Nat.lt_succ_self _

/-- Whoever goes on leaves less to do. -/
theorem Moves.work_lt (moves : Moves w l t) (inside : l.party ≠ .outside) : t.work < w.work := by
  cases moves with
  | initAgain | init | parse | setAvailable | storeAvailable | modemRestart =>
      exact absurd rfl inside
  | sendInit here =>
      simp only [World.work, here, Caller.work, LocMsg.work, List.map_append, List.sum_append,
        List.map_cons, List.map_nil, List.sum_cons, List.sum_nil]
      omega
  | @sendChange gps_conf_tmp p rest here =>
      have little := work_change w.gps_conf p
      simp only [World.work, here, Caller.work, List.map_append, List.sum_append, List.length_cons]
      omega
  | skipChange here =>
      simp only [World.work, here, Caller.work, List.length_cons]
      omega
  | restore here =>
      simp only [World.work, here, Caller.work]
      omega
  | sendAvailable here =>
      simp only [World.work, here, Caller.work, LocMsg.work, List.map_append, List.sum_append,
        List.map_cons, List.map_nil, List.sum_cons, List.sum_nil]
      omega
  | @proc added msg msgs free done first =>
      have less := work_proc { w with msgs := msgs, log := w.log ++ [.proc msg] } added msg done
      refine Nat.lt_of_lt_of_eq less ?_
      simp only [World.work, first, List.map_cons, List.sum_cons]
      omega
  | @read item todo free next =>
      simp only [World.work, free, next, work_msg, Option.map_some, Option.map_none,
        Option.getD_some, Option.getD_none, List.length_cons]
      omega
  | send built =>
      simp only [World.work, built, List.map_append, List.sum_append, List.map_cons, List.map_nil,
        List.sum_cons, List.sum_nil, Option.map_some, Option.map_none, Option.getD_some,
        Option.getD_none]
      omega

theorem Moves.adapter (moves : Moves w l t) (set : w.adapter = true) : t.adapter = true := by
  cases moves with
  | init => rfl
  | @proc added msg =>
      cases msg with
      | _ => exact set
  | _ => exact set

/-- As long as something is under way, somebody can go on. -/
theorem canMove_helpful (set : w.adapter = true) (open_ : ¬ Quiet w) :
    CanMove step Label.party w.helpful w := by
  cases here : w.caller with
  | idle =>
      have helper : w.helpful = .worker := by rw [World.helpful, here]
      rw [helper]
      cases built : w.built with
      | some msg => exact ⟨.send, rfl, by simp [step, built]⟩
      | none =>
          cases todo : w.todo with
          | cons item rest => exact ⟨.read, rfl, by simp [step, built, todo]⟩
          | nil =>
              cases queue : w.msgs with
              | cons msg msgs => exact ⟨.proc 0, rfl, by simp [step, built, todo, queue]⟩
              | nil => exact absurd ⟨set, here, queue, built, todo⟩ open_
  | initialising =>
      exact ⟨.sendInit, by rw [World.helpful, here]; rfl, by simp [step, here]⟩
  | sending gps_conf_tmp rest =>
      have helper : w.helpful = .caller := by rw [World.helpful, here]
      rw [helper]
      cases rest with
      | nil => exact ⟨.restore, rfl, by simp [step, here]⟩
      | cons p rest => exact ⟨.sendChange, rfl, by simp [step, here]⟩
  | available available apn =>
      exact ⟨.sendAvailable, by rw [World.helpful, here]; rfl, by simp [step, here]⟩

theorem not_canMove_of_quiet (quiet : Quiet w) {p : Party} (inside : p ≠ .outside) :
    ¬ CanMove step Label.party p w := by
  obtain ⟨set, idle, empty, free, done⟩ := quiet
  rintro ⟨l, rfl, moved⟩
  cases l with
  | init | parse | setAvailable | modemRestart => exact inside rfl
  | _ => simp [step, idle, empty, free, done] at moved

theorem helpful_ne_outside (w : World) : w.helpful ≠ .outside := by
  cases here : w.caller with
  | _ => simp [World.helpful, here]

end Work

section Settling

/-- Without calls of the functions and restarts of the modem everything comes to rest. -/
theorem exists_quiet_of_inside
    (e : Execution (restrict (·.party ≠ Party.outside) step))
    (fair : ∀ p, p ≠ .outside → e.Fair Label.party p) (set : (e.state 0).adapter = true) :
    ∃ k, Quiet (e.state k) := by
  have keeps (w : World) (l : Label) (t : World) (set : w.adapter = true) (_ : ¬ Quiet w)
      (taken : restrict (·.party ≠ .outside) step w l = some t) : t.adapter = true :=
    (moves (restrict_eq_some.mp taken).2).adapter set
  have goesOn (w : World) (set : w.adapter = true) (open_ : ¬ Quiet w) :
      CanMove (restrict (·.party ≠ .outside) step) Label.party w.helpful w :=
    (canMove_restrict (fun l mover => mover ▸ helpful_ne_outside w) w).mpr
      (canMove_helpful set open_)
  have lowers (w : World) (l : Label) (t : World) (_ : w.adapter = true) (_ : ¬ Quiet w)
      (taken : restrict (·.party ≠ .outside) step w l = some t) : t.work < w.work := by
    obtain ⟨inside, taken⟩ := restrict_eq_some.mp taken
    exact (moves taken).work_lt inside
  obtain ⟨k, -, quiet⟩ := e.eventually_of_rank World.work World.helpful keeps goesOn
    (fun w l t set open_ taken => .inr (.inl (lowers w l t set open_ taken)))
    (fun w => fair _ (helpful_ne_outside w)) set
  exact ⟨k, quiet⟩

theorem quiet_step (quiet : Quiet w) (inside : l.party ≠ .outside) (moved : step w l = some t) :
    Quiet t :=
  absurd ⟨l, rfl, by simp [moved]⟩ (not_canMove_of_quiet quiet inside)

/-- In every execution from the start of the process with careful calls that neither the worker nor
the caller leaves for good: after the last call and the last restart everything comes to rest, and
from then on the modem holds the current values. -/
theorem configuration_settles (e : Execution step) (initial : IsInit (e.state 0))
    (careful : ∀ m l, e.label m = some l → Careful (e.state m) l)
    (worker : e.Fair Label.party .worker) (caller : e.Fair Label.party .caller) {n : Nat}
    (set : (e.state n).adapter = true)
    (calm : ∀ m l, n ≤ m → e.label m = some l → l.party ≠ .outside) :
    ∃ m, n ≤ m ∧ ∀ k, m ≤ k → Quiet (e.state k) ∧
      ∀ s ∈ reinit (e.state k).sap_conf, told s (e.state k).log = some ((e.state k).msg s) := by
  have start : Sound (e.state 0) ∧ AllBound (e.state 0) := by
    obtain ⟨unset, idle, -⟩ := initial
    exact ⟨by simp only [Sound, idle], fun _ _ => .inl (.inl unset)⟩
  have keeps (w : World) (l : Label) (t : World) (inv : Sound w ∧ AllBound w)
      (careful : Careful w l) (taken : step w l = some t) : Sound t ∧ AllBound t :=
    ⟨inv.1.moves (moves taken), (AllBound.moves inv.1 inv.2 (moves taken)).mpr careful⟩
  have bound (m : Nat) : Sound (e.state m) ∧ AllBound (e.state m) :=
    e.invariant_of_guarded keeps (fun m l _ => careful m l) start (Nat.zero_le m)
  have fair (p : Party) (inside : p ≠ .outside) : e.Fair Label.party p := by
    cases p with
    | worker => exact worker
    | caller => exact caller
    | outside => exact absurd rfl inside
  obtain ⟨tail, states, tailFair⟩ := e.exists_tail Label.party (·.party ≠ .outside) n calm
  obtain ⟨k, quiet⟩ := exists_quiet_of_inside tail
    (fun p inside => tailFair p (fun l mover => mover ▸ inside) (fair p inside))
    (by rw [states]; exact set)
  rw [states] at quiet
  have stays (m : Nat) (later : n + k ≤ m) : Quiet (e.state m) :=
    e.invariant_of_guarded (fun _ _ _ => quiet_step)
      (fun m l later => calm m l (Nat.le_trans (Nat.le_add_right n k) later)) quiet later
  exact ⟨n + k, Nat.le_add_right n k, fun m later =>
    ⟨stays m later, fun s mem => ((bound m).2 s mem).arrived (stays m later)⟩⟩

/-- The calls of updateThenRestart, and nothing after them. -/
theorem update_settles : ∃ e : Execution step, e.state 0 = bootWorld ∧ ∃ m, ∀ k, m ≤ k →
    Quiet (e.state k) ∧
      ∀ s ∈ reinit (e.state k).sap_conf, told s (e.state k).log = some ((e.state k).msg s) := by
  have initial : IsInit bootWorld := ⟨rfl, rfl, rfl, rfl, rfl, rfl⟩
  have meets : Meets step Careful bootWorld updateThenRestart := by decide +kernel
  obtain ⟨t, run, quiet⟩ : ∃ t, Run step bootWorld updateThenRestart t ∧ Quiet t :=
    ⟨_, run_iff_foldlM.mpr rfl, rfl, rfl, rfl, rfl, rfl⟩
  obtain ⟨e, begins, ends, labels⟩ := run.exists_execution
  have fair {p : Party} (inside : p ≠ .outside) : e.Fair Label.party p :=
    Execution.fair_of_blocked ends (not_canMove_of_quiet quiet inside)
  have ended (m : Nat) (l : Label) (later : updateThenRestart.length ≤ m)
      (moved : e.label m = some l) : l.party ≠ .outside := by
    rw [labels, List.getElem?_eq_none later] at moved
    cases moved
  obtain ⟨m, -, rest⟩ := configuration_settles e (begins ▸ initial)
    (fun n l => e.guarded_of_meets labels (begins.symm ▸ meets) n l) (fair (by simp))
    (fair (by simp)) (by rw [ends _ (Nat.le_refl _)]; exact quiet.1) ended
  exact ⟨e, begins, m, rest⟩

end Settling
end Msm8974.Reinit
