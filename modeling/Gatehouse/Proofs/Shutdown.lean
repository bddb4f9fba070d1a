import Mathlib.Logic.Function.Basic
import Gatehouse.Shutdown

/-!
# Nobody misses the shutdown

A call that triggers the shutdown raises the flag and then, if the flag was not raised before, sends
the message. A listener, which is a connection or the accept loop of a server, first subscribes and
then looks at the flag. Any number of calls and listeners take these steps in any order (`Scene.run`).

The order of the two steps on either side is what makes it work: who subscribes too late for the
message looks at the flag later still, and finds it raised. `Sound` is what every step keeps.
-/

namespace Gatehouse.Shutdown

/-- Where a call that triggers the shutdown is. -/
inductive Trigger
  | called
  /-- It was the one to raise the flag, and has not sent the message yet. -/
  | sending
  | returned (sent : Bool)
  deriving DecidableEq, Repr

/-- Where a listener is: once it has subscribed, messages wait for it at a place. -/
inductive Listener
  | arriving
  | subscribed (place : Nat)
  /-- It has looked at the flag, and listens for the message from then on. -/
  | ready (place : Nat) (seen received : Bool)
  deriving DecidableEq, Repr

/-- The shutdown with the calls and the listeners around it, each of which has a number. -/
structure Scene where
  shutdown : Shutdown := {}
  calls : Nat → Trigger := fun _ => .called
  listeners : Nat → Listener := fun _ => .arriving

/-- One step of a call or of a listener. -/
inductive Action
  | raise (call : Nat)
  | send (call : Nat)
  | subscribe (listener : Nat)
  | look (listener : Nat)
  | receive (listener : Nat)
  deriving DecidableEq, Repr

/-- Whether a call was the one to raise the flag. -/
def Trigger.IsFirst (t : Trigger) : Prop := t = .sending ∨ t = .returned true

/-- Where messages wait for a listener. -/
def Listener.place? : Listener → Option Nat
  | .arriving => none
  | .subscribed place => some place
  | .ready place _ _ => some place

namespace Scene

/-- What one step does; who is not at that step does nothing. -/
def step (s : Scene) : Action → Scene
  | .raise i =>
    match s.calls i with
    | .called =>
      let (before, shutdown) := s.shutdown.raise
      { s with
        shutdown
        calls := Function.update s.calls i (if before then .returned false else .sending) }
    | _ => s
  | .send i =>
    match s.calls i with
    | .sending =>
      { s with
        shutdown := s.shutdown.broadcast
        calls := Function.update s.calls i (.returned true) }
    | _ => s
  | .subscribe j =>
    match s.listeners j with
    | .arriving =>
      { s with
        shutdown := s.shutdown.subscribe
        listeners := Function.update s.listeners j (.subscribed s.shutdown.waiting.length) }
    | _ => s
  | .look j =>
    match s.listeners j with
    | .subscribed place =>
      { s with listeners := Function.update s.listeners j (.ready place s.shutdown.triggered false) }
    | _ => s
  | .receive j =>
    match s.listeners j with
    | .ready place seen _ =>
      match s.shutdown.receive place with
      | (.signal, shutdown) =>
        { s with shutdown, listeners := Function.update s.listeners j (.ready place seen true) }
      | (.empty, _) => s
    | _ => s

/-- What a sequence of steps does. -/
def run (s : Scene) (actions : List Action) : Scene := actions.foldl step s

/-- The two steps of a call together trigger the shutdown. -/
theorem shutdown_raise_send (s : Scene) {i : Nat} (h : s.calls i = .called) :
    (s.run [.raise i, .send i]).shutdown = s.shutdown.trigger := by
  cases hflag : s.shutdown.triggered <;> simp [run, step, h, Shutdown.raise, Shutdown.trigger, hflag]

/-- What every step keeps about the flag, the messages sent and the calls. -/
structure Raised (triggered : Bool) (sent : Nat) (calls : Nat → Trigger) : Prop where
  /-- Only one call raises the flag. -/
  alone : ∀ i i', (calls i).IsFirst → (calls i').IsFirst → i = i'
  raised : ∀ i, (calls i).IsFirst → triggered = true
  unsent : ∀ i, calls i = .sending → sent = 0
  gone : ∀ i, calls i = .returned true → 0 < sent
  once : sent ≤ 1
  /-- The flag is up before the message goes out. -/
  flag : 0 < sent → triggered = true

/-- What every step keeps about the messages and the listeners. -/
structure Heard (sent : Nat) (waiting : List Bool) (listeners : Nat → Listener) : Prop where
  placed : ∀ j place, (listeners j).place? = some place → place < waiting.length
  apart : ∀ j j' place, (listeners j).place? = some place →
    (listeners j').place? = some place → j = j'
  /-- Who found the flag down has the message, once it is out. -/
  told : 0 < sent → ∀ j place received, listeners j = .ready place false received →
    waiting.getD place false = true ∨ received = true

namespace Raised

variable {triggered : Bool} {sent : Nat} {calls : Nat → Trigger}

/-- A call that finds the flag up has nothing more to do. -/
theorem again (h : Raised triggered sent calls) (i : Nat) :
    Raised triggered sent (Function.update calls i (.returned false)) := by
  have hold : ∀ k t, t ≠ .returned false →
      Function.update calls i (.returned false) k = t → calls k = t := by
    intro k t ht hk
    rw [Function.update_apply] at hk
    split at hk
    · exact absurd hk.symm ht
    · exact hk
  have hfirst : ∀ k, (Function.update calls i (.returned false) k).IsFirst → (calls k).IsFirst :=
    fun k hk => hk.imp (hold k _ (by simp)) (hold k _ (by simp))
  exact { h with
    alone := fun k k' hk hk' => h.alone k k' (hfirst k hk) (hfirst k' hk')
    raised := fun k hk => h.raised k (hfirst k hk)
    unsent := fun k hk => h.unsent k (hold k _ (by simp) hk)
    gone := fun k hk => h.gone k (hold k _ (by simp) hk) }

/-- A call that finds the flag down is the only one to raise it. -/
theorem first (h : Raised false sent calls) (i : Nat) :
    Raised true sent (Function.update calls i .sending) := by
  have hzero : sent = 0 := by
    by_contra hpos
    have := h.flag (by omega)
    contradiction
  have honly : ∀ k, (Function.update calls i .sending k).IsFirst → k = i := by
    intro k hk
    by_contra hki
    rw [Function.update_of_ne hki] at hk
    have := h.raised k hk
    contradiction
  exact {
    alone := fun k k' hk hk' => (honly k hk).trans (honly k' hk').symm
    raised := fun _ _ => rfl
    unsent := fun _ _ => hzero
    gone := by
      intro k hk
      rw [honly k (.inr hk), Function.update_self] at hk
      contradiction
    once := h.once
    flag := fun _ => rfl }

/-- The call that raised the flag is the one to send. -/
theorem send (h : Raised triggered sent calls) {i : Nat} (hi : calls i = .sending) :
    Raised triggered (sent + 1) (Function.update calls i (.returned true)) := by
  have hzero : sent = 0 := h.unsent i hi
  have hup : triggered = true := h.raised i (.inl hi)
  have honly : ∀ k, (Function.update calls i (.returned true) k).IsFirst → k = i := by
    intro k hk
    by_contra hki
    rw [Function.update_of_ne hki] at hk
    exact hki (h.alone k i hk (.inl hi))
  exact {
    alone := fun k k' hk hk' => (honly k hk).trans (honly k' hk').symm
    raised := fun _ _ => hup
    unsent := by
      intro k hk
      rw [honly k (.inl hk), Function.update_self] at hk
      contradiction
    gone := fun _ _ => Nat.succ_pos _
    once := by omega
    flag := fun _ => hup }

end Raised

namespace Heard

variable {sent : Nat} {waiting : List Bool} {listeners : Nat → Listener}

/-- The message is put at every place. -/
theorem send (h : Heard sent waiting listeners) :
    Heard (sent + 1) (waiting.map fun _ => true) listeners where
  placed j place hj := by
    rw [List.length_map]
    exact h.placed j place hj
  apart := h.apart
  told := by
    intro _ j place received hj
    have hlt : place < waiting.length := h.placed j place (by rw [hj]; rfl)
    left
    simp [hlt]

/-- Who subscribes gets a place of its own. -/
theorem subscribe (h : Heard sent waiting listeners) (j : Nat) :
    Heard sent (waiting ++ [false]) (Function.update listeners j (.subscribed waiting.length)) := by
  have hlength : (waiting ++ [false]).length = waiting.length + 1 := by simp
  -- The new place lies behind all the others.
  have hplace : ∀ k place,
      (Function.update listeners j (.subscribed waiting.length) k).place? = some place →
        (k = j ∧ place = waiting.length) ∨
          ((listeners k).place? = some place ∧ place < waiting.length) := by
    intro k place hk
    rw [Function.update_apply] at hk
    split at hk
    next hkj => exact .inl ⟨hkj, (Option.some.inj hk).symm⟩
    next => exact .inr ⟨hk, h.placed k place hk⟩
  refine ⟨?_, ?_, ?_⟩
  · intro k place hk
    have := hplace k place hk
    omega
  · intro k k' place hk hk'
    rcases hplace k place hk with ⟨hkj, hp⟩ | ⟨hk, hp⟩ <;>
      rcases hplace k' place hk' with ⟨hkj', hp'⟩ | ⟨hk', hp'⟩
    · omega
    · omega
    · omega
    · exact h.apart k k' place hk hk'
  · intro hsent k place received hk
    rw [Function.update_apply] at hk
    split at hk
    · contradiction
    · have hlt : place < waiting.length := h.placed k place (by rw [hk]; rfl)
      have htold := h.told hsent k place received hk
      rwa [List.getD_eq_getElem?_getD, List.getElem?_append_left hlt, ← List.getD_eq_getElem?_getD]

/-- A listener that moves on at its place changes nothing about who waits where. -/
theorem at_place {waiting' : List Bool} {j : Nat} {l : Listener} (h : Heard sent waiting listeners)
    (hl : l.place? = (listeners j).place?) (hlength : waiting'.length = waiting.length)
    (htold : 0 < sent → ∀ k place received,
      Function.update listeners j l k = .ready place false received →
        waiting'.getD place false = true ∨ received = true) :
    Heard sent waiting' (Function.update listeners j l) := by
  have hplace : ∀ k, (Function.update listeners j l k).place? = (listeners k).place? := by
    intro k
    rw [Function.update_apply]
    split
    next hkj => rw [hkj, hl]
    next => rfl
  refine ⟨?_, ?_, htold⟩
  · intro k place hk
    rw [hplace] at hk
    rw [hlength]
    exact h.placed k place hk
  · intro k k' place hk hk'
    rw [hplace] at hk hk'
    exact h.apart k k' place hk hk'

/-- Who looks at the flag after the message went out finds it up. -/
theorem look {triggered : Bool} {j place : Nat} (h : Heard sent waiting listeners)
    (hflag : 0 < sent → triggered = true) (hj : listeners j = .subscribed place) :
    Heard sent waiting (Function.update listeners j (.ready place triggered false)) := by
  refine h.at_place (by rw [hj]; rfl) rfl ?_
  intro hsent k place' received hk
  rw [Function.update_apply] at hk
  split at hk
  · rw [hflag hsent] at hk
    injection hk
    contradiction
  · exact h.told hsent k place' received hk

/-- Who takes its message leaves those of the others. -/
theorem receive {j place : Nat} {seen received : Bool} (h : Heard sent waiting listeners)
    (hj : listeners j = .ready place seen received) :
    Heard sent (waiting.set place false)
      (Function.update listeners j (.ready place seen true)) := by
  refine h.at_place (by rw [hj]; rfl) (by simp) ?_
  intro hsent k place' received' hk
  rw [Function.update_apply] at hk
  split at hk
  · right
    injection hk with _ _ hreceived
    exact hreceived.symm
  next hkj =>
    have hne : place ≠ place' := by
      rintro rfl
      exact hkj (h.apart k j place (by rw [hk]; rfl) (by rw [hj]; rfl))
    have htold := h.told hsent k place' received' hk
    rwa [List.getD_eq_getElem?_getD, List.getElem?_set_ne hne, ← List.getD_eq_getElem?_getD]

end Heard

/-- What every step keeps. -/
structure Sound (s : Scene) : Prop where
  calls : Raised s.shutdown.triggered s.shutdown.sent s.calls
  listeners : Heard s.shutdown.sent s.shutdown.waiting s.listeners

/-- Before anybody has done anything. -/
theorem sound_initial : Sound {} where
  calls := by constructor <;> simp [Trigger.IsFirst]
  listeners := by constructor <;> simp [Listener.place?]

theorem Sound.step {s : Scene} (hs : Sound s) (action : Action) : Sound (s.step action) := by
  cases action with
  | raise i =>
    simp only [Scene.step]
    split
    case h_1 hi =>
      cases hflag : s.shutdown.triggered with
      | true =>
        have hcalls := hs.calls.again i
        rw [hflag] at hcalls
        simp only [Shutdown.raise, hflag]
        exact ⟨hcalls, hs.listeners⟩
      | false =>
        have hcalls := hs.calls
        rw [hflag] at hcalls
        simp only [Shutdown.raise, hflag]
        exact ⟨hcalls.first i, hs.listeners⟩
    case h_2 => exact hs
  | send i =>
    simp only [Scene.step]
    split
    case h_1 hi => exact ⟨hs.calls.send hi, hs.listeners.send⟩
    case h_2 => exact hs
  | subscribe j =>
    simp only [Scene.step]
    split
    case h_1 hj => exact ⟨hs.calls, hs.listeners.subscribe j⟩
    case h_2 => exact hs
  | look j =>
    simp only [Scene.step]
    split
    case h_1 place hj => exact ⟨hs.calls, hs.listeners.look hs.calls.flag hj⟩
    case h_2 => exact hs
  | receive j =>
    simp only [Scene.step]
    split
    case h_1 place seen received hj =>
      by_cases hwaiting : s.shutdown.waiting.getD place false = true
      · simp only [Shutdown.receive, hwaiting, if_true]
        exact ⟨hs.calls, hs.listeners.receive hj⟩
      · simp only [Shutdown.receive, hwaiting]
        exact hs
    case h_2 => exact hs

theorem Sound.run {s : Scene} (hs : Sound s) (actions : List Action) : Sound (s.run actions) := by
  induction actions generalizing s with
  | nil => exact hs
  | cons action rest ih => exact ih (hs.step action)

/-- **Nobody misses the shutdown.** Whatever the order of the steps, one message goes out at most, and
from then on who has set itself up either found the flag up, or has received the message, or has it
waiting at a place which it shares with nobody. -/
theorem nobody_misses_shutdown (actions : List Action) :
    let s := Scene.run {} actions
    s.shutdown.sent ≤ 1 ∧
      (∀ j j' place, (s.listeners j).place? = some place → (s.listeners j').place? = some place →
        j = j') ∧
      ∀ i, s.calls i = .returned true →
        s.shutdown.sent = 1 ∧
          ∀ j place seen received, s.listeners j = .ready place seen received →
            seen = true ∨ received = true ∨ (s.shutdown.receive place).1 = .signal := by
  intro s
  obtain ⟨hcalls, hlisteners⟩ : Sound s := sound_initial.run actions
  refine ⟨hcalls.once, hlisteners.apart, ?_⟩
  intro i hi
  have hgone : 0 < s.shutdown.sent := hcalls.gone i hi
  have honce : s.shutdown.sent ≤ 1 := hcalls.once
  refine ⟨by omega, ?_⟩
  intro j place seen received hj
  cases hseen : seen with
  | true => exact .inl rfl
  | false =>
    subst hseen
    right
    rcases hlisteners.told hgone j place received hj with hwaiting | hreceived
    · right
      simp only [Shutdown.receive, hwaiting, if_true]
    · exact .inl hreceived

/-- Two listeners set themselves up first; then a third gets in between the flag and the message. -/
theorem nobody_misses_shutdown_between :
    let s := Scene.run {} [.subscribe 0, .look 0, .subscribe 1, .look 1, .raise 0, .raise 1,
      .subscribe 2, .look 2, .send 0, .receive 0]
    s.calls 0 = .returned true ∧ s.calls 1 = .returned false ∧ s.shutdown.sent = 1 ∧
      s.listeners 0 = .ready 0 false true ∧ s.listeners 2 = .ready 2 true false ∧
      s.listeners 1 = .ready 1 false false ∧ (s.shutdown.receive 1).1 = .signal := by
  intro s
  have hcall : s.calls 0 = .returned true := rfl
  have hlistener : s.listeners 1 = .ready 1 false false := rfl
  obtain ⟨-, -, hmiss⟩ := nobody_misses_shutdown [.subscribe 0, .look 0, .subscribe 1, .look 1,
    .raise 0, .raise 1, .subscribe 2, .look 2, .send 0, .receive 0]
  obtain ⟨hsent, hall⟩ := hmiss 0 hcall
  have hsignal : (s.shutdown.receive 1).1 = .signal := by
    simpa using hall 1 1 false false hlistener
  exact ⟨hcall, rfl, hsent, rfl, rfl, hlistener, hsignal⟩

end Scene

end Gatehouse.Shutdown
