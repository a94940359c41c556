import Msm8974.Utils.ListRefinement
import Msm8974.Utils.MsgQDelivery
import Msm8974.Utils.MsgQMonitor

/-!
msg_q.cpp on its memory refines the queue of the list. Every step that the threads can take is
defined, and seen through the elements in memory it is a step of the queue or, for a consumer that
wakes up for no reason, none. No wake-up is lost: while a consumer is blocked, as many others are
on their way to the list as there are messages in it.
-/

namespace Msm8974.MsgQ
open Chains Runs ListMemory

variable {π M D C : Type}

theorem convert_code (rv : LinkedListErrType) :
    convert (code rv) = convertLinkedListErrType rv := by
  cases rv <;> rfl

section Memory
variable {m : Memory π (Send M D) D Unit} {list : List (ListElement (Send M D) D)}

/-- The memory stores this list behind its handle. -/
def Holds (m : Memory π (Send M D) D Unit) (list : List (ListElement (Send M D) D)) : Prop :=
  ∃ s, Represents m s ∧ s.list = some list

theorem Holds.initial (heap : Heap π (ListElement (Send M D) D)) :
    Holds (msgQInit heap).msg_list [] := by
  refine ⟨⟨some [], [], [], [], [], [], ()⟩, ⟨rfl, rfl, rfl, .some ?_⟩, rfl⟩
  exact ⟨[], Chain.nil heap, rfl, Nat.le_refl _⟩

theorem Holds.elements (h : Holds m list) : elements m = list := by
  obtain ⟨s, represents, here⟩ := h
  obtain ⟨-, absent⟩ | ⟨p_list, cells, handle, list', chain, bound⟩ := represents.handle
  · cases here.symm.trans absent
  · rw [MsgQ.elements, handle]
    exact (chain.forward.readBack bound).trans (Option.some.inj (list'.symm.trans here))

/-- What a call makes of the list, without the answers that a `Memory` collects. -/
theorem Holds.of_follows [DecidableEq π] {s : Contents (Send M D) D Unit}
    {op : Op π (Send M D) D Unit} (follows : Follows m s op) {r : Reply (Send M D)}
    (replies : (s.step op).replies = s.replies ++ [r]) :
    ∃ m', m.call op = some (r, m') ∧ Represents m' { s.step op with replies := m'.replies } ∧
      m'.deallocs = (s.step op).destroyed.filterMap deallocCall := by
  obtain ⟨reply, m', call, represents'⟩ := follows
  have same : m'.replies ++ [reply] = s.replies ++ [r] := represents'.replies.trans replies
  obtain ⟨-, last⟩ := List.append_inj' same rfl
  obtain rfl : reply = r := List.singleton_inj.mp last
  exact ⟨m', call, ⟨represents'.world, rfl, represents'.deallocs, represents'.list⟩,
    represents'.deallocs⟩

variable [DecidableEq π]

theorem Holds.add (h : Holds m list) (msg : Send M D) (dealloc : Option D) {elem : π}
    (fresh : m.heap elem = none) :
    ∃ m', m.linkedListAdd (some msg) dealloc (some elem) = some (⟨code .success, none⟩, m') ∧
      Holds m' (⟨msg, dealloc⟩ :: list) := by
  obtain ⟨s, represents, here⟩ := h
  obtain ⟨m', call, represents', -⟩ := Holds.of_follows (r := ⟨code .success, none⟩)
    (follows_add represents (some msg) dealloc (some elem) fresh)
    (by simp [Contents.step, here, Contents.reply])
  exact ⟨m', call, _, represents', by simp [Contents.step, here, Contents.reply, linkedListAdd]⟩

theorem Holds.add_failing (h : Holds m list) (msg : Send M D) (dealloc : Option D) :
    m.linkedListAdd (some msg) dealloc none = some (⟨code .failureGeneral, none⟩, m) := by
  obtain ⟨s, represents, here⟩ := h
  obtain ⟨-, absent⟩ | ⟨p_list, cells, handle, -, -, -⟩ := represents.handle
  · cases here.symm.trans absent
  · simp [Memory.linkedListAdd, handle]

omit [DecidableEq π] in
theorem Holds.empty_iff (h : Holds m list) : m.linkedListEmpty.rv ≠ 0 ↔ list = [] := by
  obtain ⟨s, represents, here⟩ := h
  obtain ⟨-, absent⟩ | ⟨p_list, cells, handle, list', chain, -⟩ := represents.handle
  · cases here.symm.trans absent
  · obtain rfl := Option.some.inj (list'.symm.trans here)
    cases cells <;> simp [Memory.linkedListEmpty, handle, chain.head, first]

theorem Holds.remove_nil (h : Holds m []) :
    m.linkedListRemove true = some (⟨code .unavailableResource, none⟩, m) := by
  obtain ⟨s, represents, here⟩ := h
  obtain ⟨-, absent⟩ | ⟨p_list, cells, handle, list', chain, -⟩ := represents.handle
  · cases here.symm.trans absent
  · obtain rfl : cells = [] := List.map_eq_nil_iff.mp (Option.some.inj (list'.symm.trans here))
    simp [Memory.linkedListRemove, handle, chain.tail]

theorem Holds.remove_concat {elem : ListElement (Send M D) D} (h : Holds m (list ++ [elem])) :
    ∃ m', m.linkedListRemove true =
        some (⟨code .success, some (some elem.data_ptr)⟩, m') ∧ Holds m' list := by
  obtain ⟨s, represents, here⟩ := h
  obtain ⟨m', call, represents', -⟩ := Holds.of_follows
    (r := ⟨code .success, some (some elem.data_ptr)⟩) (follows_remove represents true)
    (by simp [Contents.step, here, Contents.reply])
  exact ⟨m', call, _, represents', by simp [Contents.step, here, Contents.reply]⟩

theorem Holds.flush (h : Holds m list) :
    ∃ m', m.linkedListFlush = some (⟨code .success, none⟩, m') ∧ Holds m' [] ∧
      m'.deallocs = m.deallocs ++ list.filterMap deallocCall := by
  obtain ⟨s, represents, here⟩ := h
  obtain ⟨m', call, represents', deallocs⟩ := Holds.of_follows (r := ⟨code .success, none⟩)
    (follows_flush represents) (by simp [Contents.step, here, Contents.reply])
  refine ⟨m', call, ⟨_, represents', by simp [Contents.step, here, Contents.reply]⟩, ?_⟩
  simp [deallocs, represents.deallocs, Contents.step, here, Contents.reply]

theorem Holds.destroy (h : Holds m list) :
    ∃ m', m.linkedListDestroy true = some (⟨code .success, none⟩, m') ∧
      m'.deallocs = m.deallocs ++ list.filterMap deallocCall := by
  obtain ⟨s, represents, here⟩ := h
  obtain ⟨m', call, -, deallocs⟩ := Holds.of_follows (r := ⟨code .success, none⟩)
    (follows_destroy represents true) (by simp [Contents.step, Contents.reply])
  refine ⟨m', call, ?_⟩
  simp [deallocs, represents.deallocs, Contents.step, here, Contents.reply]

end Memory

namespace Monitor
variable [DecidableEq C] {w u : Monitor π M D C}

/-- The queue that the threads see. -/
def view (w : Monitor π M D C) : World M D C where
  q := w.msg_q_data.map fun q => ⟨elements q.msg_list, q.unblocked⟩
  waiting consumer := decide (consumer ∈ w.list_cond ∨ consumer ∈ w.woken)
  sends := w.sends
  log := w.log

omit [DecidableEq C] in
/-- The messages in the list, oldest first. -/
def queued (w : Monitor π M D C) : List (Send M D) :=
  ((w.msg_q_data.map fun q => elements q.msg_list).getD []).reverse.map (·.data_ptr)

end Monitor

/-- The step of the queue that a call is; a spurious wake-up is none. -/
def Call.shows : Call π M D C → List (Label M D C)
  | .snd msg_obj dealloc malloc _ => [.snd msg_obj dealloc malloc.isSome]
  | .rcv consumer msg_obj => [.rcv consumer msg_obj]
  | .wake consumer => [.wake consumer]
  | .spurious _ => []
  | .flush => [.flush]
  | .unblock => [.unblock]
  | .destroy => [.destroy]

/-- The consumer looks at the list in msg_q_rcv, for the first time or after it was woken. -/
inductive Call.Looks (consumer : C) : Call π M D C → Prop
  | rcv : Looks consumer (.rcv consumer true)
  | wake : Looks consumer (.wake consumer)

namespace Monitor
variable [DecidableEq C] {w u : Monitor π M D C}

/-- What holds whenever nobody holds list_mutex. -/
structure Sound (w : Monitor π M D C) : Prop where
  holds : ∀ q ∈ w.msg_q_data, Holds q.msg_list (elements q.msg_list)
  apart : (w.list_cond ++ w.woken).Nodup
  destroyed : w.msg_q_data = none → w.list_cond = [] ∧ w.woken = []
  unblocked : ∀ q ∈ w.msg_q_data, q.unblocked = true → w.list_cond = []
  attended : w.list_cond ≠ [] → w.queued.length ≤ w.woken.length

/-- What a step can do. -/
inductive Moves (w : Monitor π M D C) : Call π M D C → Monitor π M D C → Prop
  | refuses {call : Call π M D C} {k : Label M D C} {n : Nat} {e : QEvent M D C}
      (failed : e.Failed) (shows : call.shows = [k])
      (shown : MsgQ.step w.view k = some { w.view with sends := n, log := w.log ++ [e] })
      (open_ : ∀ q ∈ w.msg_q_data, ∀ consumer, call.Looks consumer → q.unblocked = true)
      (other : ∀ consumer, call ≠ .wake consumer) :
      Moves w call { w with sends := n, log := w.log ++ [e] }
  | adds {q : MsgQData π M D} {msg_list : Memory π (Send M D) D Unit} {msg_obj : M}
      {dealloc : Option D} {elem : π} {woken : Option C} (here : w.msg_q_data = some q)
      (open_ : q.unblocked = false)
      (holds : Holds msg_list (⟨⟨w.sends, msg_obj, dealloc⟩, dealloc⟩ :: elements q.msg_list)) :
      Moves w (.snd (some msg_obj) dealloc (some elem) woken)
        ({ w with
          msg_q_data := some { q with msg_list }
          sends := w.sends + 1
          log := w.log ++ [QEvent.snd (some ⟨w.sends, msg_obj, dealloc⟩) .success] }.signal woken)
  | fails {q : MsgQData π M D} {msg_obj : M} {dealloc : Option D} {woken : Option C}
      (here : w.msg_q_data = some q) (open_ : q.unblocked = false) :
      Moves w (.snd (some msg_obj) dealloc none woken)
        ({ w with
          sends := w.sends + 1
          log := w.log ++
            [QEvent.snd (some ⟨w.sends, msg_obj, dealloc⟩) .failureGeneral] }.signal woken)
  | blocks {call : Call π M D C} {consumer : C} {q : MsgQData π M D} (looks : call.Looks consumer)
      (here : w.msg_q_data = some q) (open_ : q.unblocked = false)
      (empty : elements q.msg_list = []) :
      Moves w call { w with
        list_cond := w.list_cond ++ [consumer]
        woken := w.woken.erase consumer }
  | takes {call : Call π M D C} {consumer : C} {q : MsgQData π M D}
      {msg_list : Memory π (Send M D) D Unit} {elem : ListElement (Send M D) D}
      {list : List (ListElement (Send M D) D)} (looks : call.Looks consumer)
      (here : w.msg_q_data = some q) (open_ : call = .rcv consumer true → q.unblocked = false)
      (last : elements q.msg_list = list ++ [elem]) (holds : Holds msg_list list) :
      Moves w call { w with
        msg_q_data := some { q with msg_list }
        woken := w.woken.erase consumer
        log := w.log ++ [.rcv consumer (some elem.data_ptr) .success] }
  | leaves {consumer : C} {q : MsgQData π M D} (here : w.msg_q_data = some q)
      (closed : q.unblocked = true) (empty : elements q.msg_list = []) :
      Moves w (.wake consumer) { w with
        woken := w.woken.erase consumer
        log := w.log ++ [.rcv consumer none .unavailableResource] }
  | spurious {consumer : C} : Moves w (.spurious consumer) (w.signal (some consumer))
  | nothing (here : w.msg_q_data = none) : Moves w .flush w
  | flushes {q : MsgQData π M D} {msg_list : Memory π (Send M D) D Unit}
      (here : w.msg_q_data = some q) (holds : Holds msg_list [])
      (deallocs : msg_list.deallocs =
        q.msg_list.deallocs ++ (elements q.msg_list).filterMap deallocCall) :
      Moves w .flush
        { w.emptied q.msg_list msg_list with msg_q_data := some { q with msg_list } }
  | unblocks {q : MsgQData π M D} (here : w.msg_q_data = some q) (open_ : q.unblocked = false) :
      Moves w .unblock { w with
        msg_q_data := some { q with unblocked := true }
        list_cond := []
        woken := w.woken ++ w.list_cond
        log := w.log ++ [.unblock .success] }
  | destroys {q : MsgQData π M D} {msg_list : Memory π (Send M D) D Unit}
      (here : w.msg_q_data = some q)
      (deallocs : msg_list.deallocs =
        q.msg_list.deallocs ++ (elements q.msg_list).filterMap deallocCall) :
      Moves w .destroy { w.emptied q.msg_list msg_list with msg_q_data := none }

section Acts
variable [DecidableEq π]

theorem snd_moves (h : w.Sound) (msg_obj : Option M) (dealloc : Option D) (malloc : Option π)
    (woken : Option C) (enabled : w.Enabled (.snd msg_obj dealloc malloc woken)) :
    ∃ u, w.snd msg_obj dealloc malloc woken = some u ∧
      Moves w (.snd msg_obj dealloc malloc woken) u := by
  have refused {rv : MsqQErrType} (failed : rv ≠ .success)
      (result : w.snd msg_obj dealloc malloc woken = some { w with
        sends := w.sends + 1
        log := w.log ++ [.snd (msg_obj.map (⟨w.sends, ·, dealloc⟩)) rv] })
      (refuses : MsgQ.snd w.view.q (msg_obj.map (⟨w.sends, ·, dealloc⟩)) dealloc malloc.isSome =
        (rv, w.view.q)) :
      ∃ u, w.snd msg_obj dealloc malloc woken = some u ∧
        Moves w (.snd msg_obj dealloc malloc woken) u := by
    refine ⟨_, result, .refuses (.snd failed) rfl ?_ (by rintro _ _ _ ⟨⟩) (by simp)⟩
    rw [MsgQ.step, show w.view.sends = w.sends from rfl, refuses]
    rfl
  cases here : w.msg_q_data with
  | none =>
      refine refused (by simp : MsqQErrType.invalidHandle ≠ .success) ?_ ?_
      · simp [snd, here, report]
      · simp [MsgQ.snd, view, here]
  | some q =>
      have holds := h.holds q here
      obtain ⟨msg_list, unblocked⟩ := q
      cases msg_obj with
      | none =>
          refine refused (by simp : MsqQErrType.invalidParameter ≠ .success) ?_ ?_
          · simp [snd, here, report]
          · simp [MsgQ.snd, view, here]
      | some msg_obj =>
          cases unblocked with
          | true =>
              refine refused (by simp : MsqQErrType.unavailableResource ≠ .success) ?_ ?_
              · simp [snd, here, report]
              · simp [MsgQ.snd, view, here]
          | false =>
              cases malloc with
              | none =>
                  refine ⟨_, ?_, .fails here rfl⟩
                  simp only [snd, here, Option.map_some, Bool.false_eq_true, if_false,
                    holds.add_failing, Option.bind_eq_bind, Option.bind_some, convert_code]
                  cases woken <;> simp [report, signal, convertLinkedListErrType]
              | some elem =>
                  have fresh := enabled.1 _ here elem rfl
                  obtain ⟨after, added, holds'⟩ := holds.add ⟨w.sends, msg_obj, dealloc⟩ dealloc
                    (Option.isNone_iff_eq_none.mp fresh)
                  refine ⟨_, ?_, .adds here rfl holds'⟩
                  simp only [snd, here, Option.map_some, Bool.false_eq_true, if_false,
                    added, Option.bind_eq_bind, Option.bind_some, convert_code]
                  cases woken <;> simp [report, signal, convertLinkedListErrType]

theorem rcvLoop_moves (h : w.Sound) {call : Call π M D C} {consumer : C} {q : MsgQData π M D}
    (looks : call.Looks consumer) (here : w.msg_q_data = some q)
    (open_ : call = .rcv consumer true → q.unblocked = false) :
    ∃ u, { w with woken := w.woken.erase consumer }.rcvLoop consumer q = some u ∧
      Moves w call u := by
  have holds := h.holds q here
  obtain ⟨before, unblocked⟩ := q
  cases list : elements before using List.reverseRecOn with
  | nil =>
      rw [list] at holds
      have empty : before.linkedListEmpty.rv ≠ 0 := holds.empty_iff.mpr rfl
      cases unblocked with
      | false =>
          refine ⟨_, ?_, .blocks looks here rfl list⟩
          simp [rcvLoop, empty]
      | true =>
          cases looks with
          | rcv => cases open_ rfl
          | wake =>
              refine ⟨_, ?_, .leaves here rfl list⟩
              simp [rcvLoop, holds.remove_nil, report, convert, code, here]
  | append_singleton list elem =>
      rw [list] at holds
      have some_left : ¬ before.linkedListEmpty.rv ≠ 0 := fun empty => by
        simpa using holds.empty_iff.mp empty
      obtain ⟨after, removed, holds'⟩ := holds.remove_concat
      refine ⟨_, ?_, .takes looks here open_ ‹_› holds'⟩
      simp [rcvLoop, some_left, removed, report, convert, code]

theorem rcv_moves (h : w.Sound) (consumer : C) (msg_obj : Bool)
    (enabled : w.Enabled (.rcv consumer msg_obj)) :
    ∃ u, w.rcv consumer msg_obj = some u ∧ Moves w (.rcv consumer msg_obj) u := by
  obtain ⟨blocked, woken⟩ := enabled
  have outside : w.view.waiting consumer = false := by simp [view, blocked, woken]
  have update : Function.update w.view.waiting consumer false = w.view.waiting :=
    Function.update_eq_self_iff.mpr outside.symm
  have same : { w with woken := w.woken.erase consumer } = w := by
    rw [List.erase_of_not_mem woken]
  -- what the caller of a queue that refuses is told
  have refused {rv : MsqQErrType} 
      (refuses : MsgQ.rcv w.view.q msg_obj = some ⟨rv, none, w.view.q⟩) :
      MsgQ.step w.view (.rcv consumer msg_obj) =
        some { w.view with sends := w.sends, log := w.log ++ [.rcv consumer none rv] } := by
    simp only [MsgQ.step, outside, refuses, World.finish, World.setWaiting, update]
    rfl
  cases here : w.msg_q_data with
  | none =>
      refine ⟨w.report (.rcv consumer none .invalidHandle), by rw [Monitor.rcv, here], ?_⟩
      refine .refuses (.rcv (by simp)) rfl (refused ?_) (by simp [here]) (by simp)
      simp [MsgQ.rcv, view, here]
  | some q =>
      cases msg_obj with
      | false =>
          refine ⟨w.report (.rcv consumer none .invalidParameter), ?_, ?_⟩
          · simp [Monitor.rcv, here]
          refine .refuses (.rcv (by simp)) rfl (refused ?_) (by rintro _ _ _ ⟨⟩) (by simp)
          simp [MsgQ.rcv, view, here]
      | true =>
          cases closed : q.unblocked with
          | true =>
              refine ⟨w.report (.rcv consumer none .unavailableResource), ?_, ?_⟩
              · simp [Monitor.rcv, here, closed]
              refine .refuses (.rcv (by simp)) rfl (refused ?_) (fun q' there _ _ => ?_) (by simp)
              · simp [MsgQ.rcv, view, here, closed]
              · obtain rfl : q = q' := Option.some.inj (here.symm.trans there)
                exact closed
          | false =>
              obtain ⟨u, looked, moves⟩ := rcvLoop_moves h .rcv here fun _ => closed
              refine ⟨u, ?_, moves⟩
              rw [same] at looked
              simpa [Monitor.rcv, here, closed] using looked

omit [DecidableEq π] in
theorem unblock_moves (w : Monitor π M D C) : Moves w .unblock w.unblock := by
  obtain ⟨msg_q_data, list_cond, woken, sends, log⟩ := w
  cases msg_q_data with
  | none => exact .refuses (.unblock (by simp)) rfl rfl (by rintro _ _ _ ⟨⟩) (by simp)
  | some q =>
      obtain ⟨before, unblocked⟩ := q
      cases unblocked with
      | true => exact .refuses (.unblock (by simp)) rfl rfl (by rintro _ _ _ ⟨⟩) (by simp)
      | false => exact .unblocks rfl rfl

theorem acts (h : w.Sound) {call : Call π M D C} (enabled : w.Enabled call) :
    ∃ u, w.act call = some u ∧ Moves w call u := by
  cases call with
  | snd msg_obj dealloc malloc woken => exact snd_moves h msg_obj dealloc malloc woken enabled
  | rcv consumer msg_obj => exact rcv_moves h consumer msg_obj enabled
  | wake consumer =>
      cases here : w.msg_q_data with
      | none =>
          have none_left : consumer ∈ ([] : List C) := (h.destroyed here).2 ▸ enabled
          cases none_left
      | some q =>
          have looks : (Call.wake consumer : Call π M D C).Looks consumer := .wake
          obtain ⟨u, looked, moves⟩ := rcvLoop_moves h looks here (by simp)
          refine ⟨u, ?_, moves⟩
          simp only [act, here, Option.bind_eq_bind, Option.bind_some]
          exact here ▸ looked
  | spurious consumer => exact ⟨_, rfl, .spurious⟩
  | flush =>
      cases here : w.msg_q_data with
      | none => exact ⟨w, by rw [act, flush, here], .nothing here⟩
      | some q =>
          obtain ⟨after, flushed, holds, deallocs⟩ := (h.holds q here).flush
          exact ⟨_, by simp [act, flush, here, flushed], .flushes here holds deallocs⟩
  | unblock => exact ⟨_, rfl, unblock_moves w⟩
  | destroy =>
      obtain ⟨q, here⟩ := Option.isSome_iff_exists.mp enabled.1
      obtain ⟨after, destroyed, deallocs⟩ := (h.holds q here).destroy
      exact ⟨_, by simp [act, destroy, here, destroyed], .destroys here deallocs⟩

end Acts

section View

omit [DecidableEq C] in
/-- A consumer that looks at the list is not blocked. -/
theorem Sound.not_blocked (h : w.Sound) {call : Call π M D C} {consumer : C}
    (looks : call.Looks consumer) (enabled : w.Enabled call) : consumer ∉ w.list_cond := by
  cases looks with
  | rcv => exact enabled.1
  | wake => exact fun blocked => (List.nodup_append'.mp h.apart).2.2 blocked enabled

theorem view_signal {woken : Option C} (blocked : ∀ consumer ∈ woken, consumer ∈ w.list_cond) :
    (w.signal woken).view = w.view := by
  cases woken with
  | none => rfl
  | some consumer =>
      have here := blocked consumer rfl
      simp only [view, signal, World.mk.injEq, true_and, and_true]
      funext other
      by_cases same : other = consumer
      · simp [same, here]
      · simp [same, List.mem_erase_of_ne same]

/-- What the threads see of a consumer that looks at the list. -/
theorem shown_of_looks {call : Call π M D C} {consumer : C} (looks : call.Looks consumer)
    (enabled : w.Enabled call) {q : MsgQData π M D} (here : w.msg_q_data = some q)
    (open_ : call = .rcv consumer true → q.unblocked = false)
    (result : Option (Received (Send M D) D))
    (loop : MsgQ.rcvLoop ⟨elements q.msg_list, q.unblocked⟩ = result) :
    Run MsgQ.step w.view call.shows (w.view.finish consumer result) := by
  have seen : w.view.q = some ⟨elements q.msg_list, q.unblocked⟩ := by simp [view, here]
  cases looks with
  | rcv =>
      obtain ⟨blocked, woken⟩ := enabled
      have outside : w.view.waiting consumer = false := by simp [view, blocked, woken]
      refine .cons ?_ (.nil _)
      simp [MsgQ.step, outside, MsgQ.rcv, seen, open_ rfl, ← loop]
  | wake =>
      have woken : consumer ∈ w.woken := enabled
      have waits : w.view.waiting consumer = true := by simp [view, woken]
      refine .cons ?_ (.nil _)
      simp [MsgQ.step, waits, seen, loop]

theorem waiting_true (consumer : C) :
    Function.update w.view.waiting consumer true = fun other =>
      decide (other ∈ w.list_cond ++ [consumer] ∨ other ∈ w.woken.erase consumer) := by
  funext other
  by_cases same : other = consumer
  · simp [same]
  · simp [same, view, List.mem_erase_of_ne same]

theorem Sound.waiting_false (h : w.Sound) {consumer : C} (outside : consumer ∉ w.list_cond) :
    Function.update w.view.waiting consumer false = fun other =>
      decide (other ∈ w.list_cond ∨ other ∈ w.woken.erase consumer) := by
  funext other
  by_cases same : other = consumer
  · subst same
    have gone : other ∉ w.woken.erase other := (List.nodup_append'.mp h.apart).2.1.not_mem_erase
    simp [outside, gone]
  · simp [same, view, List.mem_erase_of_ne same]

omit [DecidableEq C] in
/-- The calls of dealloc functions that emptying the list notes are those of its elements. -/
theorem emptied_log {before after : Memory π (Send M D) D Unit}
    (deallocs : after.deallocs = before.deallocs ++ (elements before).filterMap deallocCall) :
    (w.emptied before after).log = w.log ++ (elements before).map (.removed ·.data_ptr) ++
      (MsgQ.deallocs (elements before)).map fun call => .dealloc call.1 call.2 := by
  rw [emptied, deallocs, List.drop_left]
  rfl

theorem Moves.shown (h : w.Sound) {call : Call π M D C} (moves : Moves w call u)
    (enabled : w.Enabled call) : Run MsgQ.step w.view call.shows u.view := by
  cases moves with
  | refuses _ shows shown _ _ =>
      rw [shows]
      exact .cons shown (.nil _)
  | @adds q msg_list msg_obj dealloc elem woken here open_ holds =>
      rw [view_signal]
      · refine .cons ?_ (.nil _)
        simp [MsgQ.step, MsgQ.snd, MsgQ.add, view, here, open_, holds.elements, linkedListAdd,
          convertLinkedListErrType]
      · exact enabled.2.2
  | @fails q msg_obj dealloc woken here open_ =>
      rw [view_signal]
      · refine .cons ?_ (.nil _)
        simp [MsgQ.step, MsgQ.snd, MsgQ.add, view, here, open_, convertLinkedListErrType]
      · exact enabled.2.2
  | @blocks _ consumer q looks here open_ empty =>
      have shown := shown_of_looks looks enabled here (fun _ => open_) none
        (by simp [MsgQ.rcvLoop, linkedListEmpty, empty, open_])
      rw [World.finish, World.setWaiting, waiting_true] at shown
      exact shown
  | @takes _ consumer q msg_list elem list looks here open_ last holds =>
      have shown := shown_of_looks looks enabled here open_
        (some ⟨.success, some elem.data_ptr, some ⟨list, q.unblocked⟩⟩)
        (by simp [MsgQ.rcvLoop, linkedListEmpty, last, convertLinkedListErrType])
      rw [World.finish, World.setWaiting, h.waiting_false (h.not_blocked looks enabled)] at shown
      simpa [view, holds.elements] using shown
  | @leaves consumer q here closed empty =>
      have looks : (Call.wake consumer : Call π M D C).Looks consumer := .wake
      have shown := shown_of_looks looks enabled here (by simp)
        (some ⟨.unavailableResource, none, some ⟨[], true⟩⟩)
        (by simp [MsgQ.rcvLoop, linkedListRemove, empty, closed, convertLinkedListErrType])
      rw [World.finish, World.setWaiting, h.waiting_false (h.not_blocked .wake enabled)] at shown
      simpa [view, here, closed, empty] using shown
  | @spurious consumer =>
      have blocked : ∀ other ∈ some consumer, other ∈ w.list_cond := by
        rintro _ ⟨⟩
        exact enabled
      rw [view_signal blocked]
      exact .nil _
  | nothing here =>
      refine .cons ?_ (.nil _)
      simp [MsgQ.step, MsgQ.flush, World.empty, view, here]
  | flushes here holds deallocs =>
      refine .cons ?_ (.nil _)
      simp [MsgQ.step, MsgQ.flush, World.empty, view, here, holds.elements, emptied_log deallocs]
      exact ⟨rfl, rfl⟩
  | unblocks here open_ =>
      refine .cons ?_ (.nil _)
      simp [MsgQ.step, MsgQ.unblock, view, here, open_, or_comm]
  | destroys here deallocs =>
      refine .cons ?_ (.nil _)
      simp [MsgQ.step, MsgQ.destroy, World.empty, view, here, emptied_log deallocs]
      exact ⟨rfl, rfl⟩

end View

section Invariant

omit [DecidableEq C] in
theorem queued_eq {q : MsgQData π M D} (here : w.msg_q_data = some q) :
    w.queued = (elements q.msg_list).reverse.map (·.data_ptr) := by
  simp [queued, here]

@[simp] theorem signal_msg_q_data (woken : Option C) (w : Monitor π M D C) :
    (w.signal woken).msg_q_data = w.msg_q_data := by
  cases woken <;> rfl

@[simp] theorem signal_log (woken : Option C) (w : Monitor π M D C) :
    (w.signal woken).log = w.log := by
  cases woken <;> rfl

@[simp] theorem signal_queued (woken : Option C) (w : Monitor π M D C) :
    (w.signal woken).queued = w.queued := by
  cases woken <;> rfl

@[simp] theorem signal_woken (woken : Option C) (w : Monitor π M D C) :
    (w.signal woken).woken = w.woken ++ woken.toList := by
  cases woken with
  | none => exact (List.append_nil _).symm
  | some consumer => rfl

omit [DecidableEq C] in
theorem Sound.initial (heap : Heap π (ListElement (Send M D) D)) :
    (initial heap : Monitor π M D C).Sound := by
  refine ⟨?_, List.nodup_nil, by rintro ⟨⟩, fun _ _ _ => rfl, fun blocked => absurd rfl blocked⟩
  intro q here
  obtain rfl := Option.some.inj here
  have holds := Holds.initial heap
  exact holds.elements.symm ▸ holds

/-- Releasing a blocked consumer makes up for one more message. -/
theorem sound_signal {woken : Option C}
    (holds : ∀ q ∈ w.msg_q_data, Holds q.msg_list (elements q.msg_list))
    (apart : (w.list_cond ++ w.woken).Nodup)
    (destroyed : w.msg_q_data = none → w.list_cond = [] ∧ w.woken = [])
    (unblocked : ∀ q ∈ w.msg_q_data, q.unblocked = true → w.list_cond = [])
    (attended : w.list_cond ≠ [] → w.queued.length ≤ w.woken.length + 1)
    (released : woken = none → w.list_cond = [])
    (blocked : ∀ consumer ∈ woken, consumer ∈ w.list_cond) : (w.signal woken).Sound := by
  cases woken with
  | none =>
      refine ⟨holds, apart, destroyed, unblocked, fun some_left => ?_⟩
      exact absurd (released rfl) some_left
  | some consumer =>
      have here := blocked consumer rfl
      have some_left : w.list_cond ≠ [] := List.ne_nil_of_mem here
      have moved : (w.list_cond.erase consumer ++ (w.woken ++ [consumer])).Perm
          (w.list_cond ++ w.woken) := by
        have front := (List.perm_cons_erase here).symm.append_right w.woken
        rw [← List.append_assoc]
        exact (List.perm_append_singleton consumer _).trans front
      refine ⟨holds, moved.nodup_iff.mpr apart, ?_, ?_, fun _ => ?_⟩
      · exact fun gone => absurd (destroyed gone).1 some_left
      · exact fun q there closed => absurd (unblocked q there closed) some_left
      · have bound := attended some_left
        have more : (w.woken ++ [consumer]).length = w.woken.length + 1 := List.length_append
        exact more ▸ bound

theorem Moves.sound (h : w.Sound) {call : Call π M D C} (moves : Moves w call u)
    (enabled : w.Enabled call) : u.Sound := by
  cases moves with
  | refuses _ _ _ _ _ => exact ⟨h.holds, h.apart, h.destroyed, h.unblocked, h.attended⟩
  | @adds q msg_list msg_obj dealloc elem woken here open_ holds =>
      have grows : elements msg_list = _ := holds.elements
      apply sound_signal
      · rintro _ ⟨⟩
        exact grows.symm ▸ holds
      · exact h.apart
      · rintro ⟨⟩
      · rintro _ ⟨⟩ closed
        cases open_.symm.trans closed
      · intro some_left
        have bound := h.attended some_left
        rw [queued_eq here] at bound
        rw [queued_eq rfl]
        simpa [grows] using bound
      · exact enabled.2.1
      · exact enabled.2.2
  | @fails q msg_obj dealloc woken here open_ =>
      refine sound_signal h.holds h.apart h.destroyed h.unblocked ?_ enabled.2.1 enabled.2.2
      exact fun some_left => Nat.le_succ_of_le (h.attended some_left)
  | @blocks _ consumer q looks here open_ empty =>
      have outside := h.not_blocked looks enabled
      refine ⟨h.holds, ?_, ?_, ?_, fun _ => ?_⟩
      · obtain ⟨distinct, distinct', disjoint⟩ := List.nodup_append'.mp h.apart
        have gone : consumer ∉ w.woken.erase consumer := distinct'.not_mem_erase
        rw [List.append_assoc, List.nodup_append']
        refine ⟨distinct, List.nodup_cons.mpr ⟨gone, distinct'.erase consumer⟩, ?_⟩
        refine List.disjoint_cons_right.mpr ⟨outside, ?_⟩
        exact fun other blocked woken => disjoint blocked (List.mem_of_mem_erase woken)
      · intro gone
        cases here.symm.trans gone
      · intro q' there closed
        obtain rfl := Option.some.inj (here.symm.trans there)
        cases open_.symm.trans closed
      · have none_left : w.queued = [] := by simp [queued_eq here, empty]
        exact none_left ▸ Nat.zero_le _
  | @takes _ consumer q msg_list elem list looks here open_ last holds =>
      have rest : elements msg_list = list := holds.elements
      refine ⟨?_, ?_, by rintro ⟨⟩, ?_, fun some_left => ?_⟩
      · rintro _ ⟨⟩
        exact rest.symm ▸ holds
      · exact h.apart.sublist (List.Sublist.append_left List.erase_sublist _)
      · rintro _ ⟨⟩ closed
        exact h.unblocked q here closed
      · have bound := h.attended some_left
        have fewer : w.woken.length - 1 ≤ (w.woken.erase consumer).length := by
          rw [List.length_erase]
          split <;> omega
        simp only [queued_eq here, last, List.length_map, List.length_reverse,
          List.length_append, List.length_singleton] at bound
        rw [queued_eq rfl]
        simp only [rest, List.length_map, List.length_reverse]
        omega
  | @leaves consumer q here closed empty =>
      have none_left := h.unblocked q here closed
      refine ⟨h.holds, ?_, ?_, h.unblocked, ?_⟩
      · exact h.apart.sublist (List.Sublist.append_left List.erase_sublist _)
      · intro gone
        cases here.symm.trans gone
      · exact fun some_left => absurd none_left some_left
  | @spurious consumer =>
      refine sound_signal h.holds h.apart h.destroyed h.unblocked ?_ (by simp) ?_
      · exact fun some_left => Nat.le_succ_of_le (h.attended some_left)
      · rintro _ ⟨⟩
        exact enabled
  | nothing here => exact h
  | @flushes q msg_list here holds deallocs =>
      have none_left : elements msg_list = [] := holds.elements
      refine ⟨?_, h.apart, by rintro ⟨⟩, ?_, fun _ => ?_⟩
      · rintro _ ⟨⟩
        exact none_left.symm ▸ holds
      · rintro _ ⟨⟩ closed
        exact h.unblocked q here closed
      · rw [queued_eq rfl]
        simp [none_left]
  | @unblocks q here open_ =>
      refine ⟨?_, ?_, by rintro ⟨⟩, fun _ _ _ => rfl, fun some_left => absurd rfl some_left⟩
      · rintro _ ⟨⟩
        exact h.holds q here
      · have moved : (w.list_cond ++ w.woken).Perm (w.woken ++ w.list_cond) := List.perm_append_comm
        exact moved.nodup_iff.mp h.apart
  | destroys here deallocs =>
      obtain ⟨-, blocked, woken⟩ := enabled
      exact ⟨by simp, h.apart, fun _ => ⟨blocked, woken⟩, by simp, fun _ => Nat.zero_le _⟩

variable [DecidableEq π]

/-- A step of a sound monitor. -/
theorem Sound.step (h : w.Sound) {call : Call π M D C} (taken : step w call = some u) :
    w.Enabled call ∧ Moves w call u ∧ u.Sound := by
  obtain ⟨enabled, taken⟩ := Option.ite_none_right_eq_some.mp taken
  obtain ⟨u', acted, moves⟩ := acts h enabled
  obtain rfl : u' = u := Option.some.inj (acted.symm.trans taken)
  exact ⟨enabled, moves, moves.sound h enabled⟩

theorem Sound.step_isSome (h : w.Sound) {call : Call π M D C} (enabled : w.Enabled call) :
    (Monitor.step w call).isSome := by
  obtain ⟨u, acted, -⟩ := acts h enabled
  rw [Monitor.step, if_pos enabled, acted]
  rfl

theorem enabled_of_isSome {call : Call π M D C} (moved : (Monitor.step w call).isSome) :
    w.Enabled call := by
  by_contra disabled
  rw [Monitor.step, if_neg disabled] at moved
  cases moved

theorem Sound.of_run {heap : Heap π (ListElement (Send M D) D)} {calls : List (Call π M D C)}
    (run : Run Monitor.step (Monitor.initial heap) calls w) : w.Sound :=
  run.invariant (fun _ _ _ h taken => (h.step taken).2.2) (.initial heap)

theorem view_run {heap : Heap π (ListElement (Send M D) D)} {calls : List (Call π M D C)}
    (run : Run Monitor.step (Monitor.initial heap) calls w) :
    Run MsgQ.step (Monitor.initial heap : Monitor π M D C).view
      (calls.flatMap Call.shows) w.view := by
  refine run.view (I := Sound) (fun _ _ _ h taken => (h.step taken).2.2) ?_ (.initial heap)
  intro _ _ _ h taken
  obtain ⟨enabled, moves, -⟩ := h.step taken
  exact moves.shown h enabled

omit [DecidableEq π] in
theorem initial_isInit (heap : Heap π (ListElement (Send M D) D)) :
    IsInit (initial heap : Monitor π M D C).view :=
  ⟨rfl, fun _ => rfl, rfl⟩

theorem delivered_of_run [DecidableEq M] [DecidableEq D]
    {heap : Heap π (ListElement (Send M D) D)} {calls : List (Call π M D C)}
    (run : Run Monitor.step (Monitor.initial heap) calls w) : Delivered w.view :=
  (view_run run).invariant (fun _ _ _ h taken => h.step taken) (.init (initial_isInit heap))

end Invariant

/-- In every run of msg_q.cpp on its memory, however the threads take turns and whatever malloc()
gives: the next step is defined, and the run is one of the queue of the list, so that a message is
received once and in order; and while a consumer is blocked on the condition variable, at least as
many have been woken as there are messages. -/
theorem msg_q_refines_queue [DecidableEq π] [DecidableEq M] [DecidableEq D]
    {heap : Heap π (ListElement (Send M D) D)} {calls : List (Call π M D C)}
    (run : Run step (initial heap) calls w) :
    (∀ call, w.Enabled call → (step w call).isSome) ∧
      Run MsgQ.step (initial heap : Monitor π M D C).view (calls.flatMap Call.shows) w.view ∧
      ExactlyOnce w.view ∧
      (w.list_cond ≠ [] → w.queued.length ≤ w.woken.length) := by
  have sound := Sound.of_run run
  have delivered := delivered_of_run run
  refine ⟨fun _ enabled => sound.step_isSome enabled, view_run run, ?_, sound.attended⟩
  refine ⟨delivered.account.order, fun msg mem => ?_, delivered.called, delivered.refused⟩
  exact delivered.account.count_eq_one mem

/-- Two messages at the addresses 10 and 20. The first wakes consumer 0, who finds it taken by
consumer 1 and gets the second. -/
def twoMessages : List (Call Nat Nat Unit Nat) :=
  [.rcv 0 true, .snd (some 5) none (some 10) (some 0), .rcv 1 true, .wake 0, .spurious 0,
    .snd (some 6) (some ()) (some 20) none, .wake 0]

theorem two_messages_refine_queue : ∃ w, Run step (initial fun _ => none) twoMessages w ∧
    ExactlyOnce w.view ∧ w.log.length = 4 := by
  obtain ⟨w, run, log⟩ : ∃ w, Run step (initial fun _ => none) twoMessages w ∧ w.log.length = 4 :=
    ⟨_, run_iff_foldlM.mpr rfl, rfl⟩
  exact ⟨w, run, (msg_q_refines_queue run).2.2.1, log⟩
end Monitor
end Msm8974.MsgQ
