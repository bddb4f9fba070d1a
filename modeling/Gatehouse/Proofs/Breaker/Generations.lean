import Gatehouse.Proofs.Breaker.Usage

/-!
# The generations of a breaker

A generation begins when the one before has come to its end, when an outcome closes or opens the
breaker, or by a reset. `beginnings` are the generations that one action begins, each with the
breaker right after, and `history` those of a run. A run is told by its history (`Chronicle`):
between one beginning and the next only calls are counted, so that the state, the number of the
generation and its end are those of the last beginning.

A generation whose end cannot be told begins all the same, but it keeps the end of the one before, and
its change of state is not reported. `history_of_changes_iff` says that nothing else can go wrong.
-/

namespace Gatehouse.Breaker

/-- Why a generation begins. -/
inductive Cause
  /-- The one before has come to its end. -/
  | due
  /-- An outcome closes the breaker or opens it. -/
  | outcome
  | reset
  deriving DecidableEq, Repr

/-- A generation that begins at an instant: the state before it, and the breaker right after. -/
structure Beginning where
  cause : Cause
  before : BreakerState
  instant : Duration
  breaker : Breaker

namespace Beginning

/-- The change of state, if the state changes. -/
def change? (e : Beginning) : Option (BreakerState × BreakerState) :=
  if e.before = e.breaker.state then none else some (e.before, e.breaker.state)

/-- Whether the end of the generation can be told. -/
def fits (p : BreakerPolicy) (e : Beginning) : Bool := expiryFits p e.breaker.state e.instant

/-- The change of state that is reported. -/
def reported? (p : BreakerPolicy) (e : Beginning) : Option (BreakerState × BreakerState) :=
  if e.fits p then e.change? else none

/-- Whether a closed breaker comes to the end of its interval. -/
def isRollover (e : Beginning) : Bool := e.cause == .due && e.before == .closed

/-- Whether a closed breaker is reset. -/
def isRenewal (e : Beginning) : Bool := e.cause == .reset && e.before == .closed

end Beginning

/-- From which state to which a generation may begin, by its cause. -/
inductive Permitted : Cause → BreakerState → BreakerState → Prop
  | rollOver : Permitted .due .closed .closed
  | probe : Permitted .due .opened .halfOpen
  | trip : Permitted .outcome .closed .opened
  | reopen : Permitted .outcome .halfOpen .opened
  | recover : Permitted .outcome .halfOpen .closed
  | reset (s : BreakerState) : Permitted .reset s .closed

/-- Changes that lead from one state to another, each from where the one before has led. -/
def IsPath (s : BreakerState) : List (BreakerState × BreakerState) → BreakerState → Prop
  | [], t => s = t
  | (from_, into) :: changes, t => s = from_ ∧ IsPath into changes t

/-- One breaker is the other but for the calls that it has counted since. -/
structure SameStay (b b' : Breaker) : Prop where
  state : b'.state = b.state
  generation : b'.generation = b.generation
  expiry : b'.expiry = b.expiry
  changes : b'.changes = b.changes

/-- From one breaker to another some generations have begun, and calls were counted in between. -/
inductive Chronicle (p : BreakerPolicy) : Breaker → List Beginning → Breaker → Prop
  | stay {b b' : Breaker} : SameStay b b' → Chronicle p b [] b'
  | begin_ {b mid b' : Breaker} {e : Beginning} {es : List Beginning} :
      SameStay b mid → e.before = mid.state → Permitted e.cause e.before e.breaker.state →
      (∃ result, Begun p mid e.breaker.state e.instant (result, e.breaker)) →
      Chronicle p e.breaker es b' → Chronicle p b (e :: es) b'

section Operations

variable (p : BreakerPolicy)

/-- The generation that begins because the one before has come to its end. -/
def dueBeginning (b : Breaker) (now : Duration) : List Beginning :=
  if b.state ≠ .halfOpen ∧ b.expiry.any (fun expiry => decide (expiry ≤ now)) then
    [⟨.due, b.state, now, (refresh p b now).2⟩]
  else []

/-- The generations that begin with the report of an outcome. -/
def settleBeginnings (b : Breaker) (generation : Nat) (success : Bool) (now : Duration) :
    List Beginning :=
  let settled := (settle p b generation success now).2
  dueBeginning p b now ++
    if settled.state = (refresh p b now).2.state then []
    else [⟨.outcome, (refresh p b now).2.state, now, settled⟩]

end Operations

namespace Usage

variable (p : BreakerPolicy)

/-- The generations that one action begins. -/
def beginnings (u : Usage) : Action → List Beginning
  | .enter | .read => dueBeginning p u.breaker u.now
  | .settle call success =>
    if call ∈ u.inFlight then settleBeginnings p u.breaker call.generation success u.now else []
  | .reset => [⟨.reset, u.breaker.state, u.now, (Breaker.reset p u.breaker u.now).2⟩]
  | .wait _ => []

/-- The generations that a sequence of actions begins. -/
def history (u : Usage) : List Action → List Beginning
  | [] => []
  | a :: actions => u.beginnings p a ++ history (u.step p a) actions

end Usage

variable {p : BreakerPolicy} {b b' mid : Breaker} {now : Duration} {es es' : List Beginning}
  {s : BreakerState} {r : Except Panic Unit × Breaker}

/-! ## Stays -/

theorem SameStay.refl (b : Breaker) : SameStay b b := ⟨rfl, rfl, rfl, rfl⟩

theorem SameStay.trans (h : SameStay b mid) (h' : SameStay mid b') : SameStay b b' :=
  ⟨h'.state.trans h.state, h'.generation.trans h.generation, h'.expiry.trans h.expiry,
    h'.changes.trans h.changes⟩

theorem Chronicle.refl (b : Breaker) : Chronicle p b [] b := .stay (.refl b)

theorem Chronicle.of_stay (h : SameStay b mid) (hrest : Chronicle p mid es b') :
    Chronicle p b es b' := by
  cases hrest with
  | stay hstay => exact .stay (h.trans hstay)
  | begin_ hstay hbefore hpermitted hbegun hrest =>
    exact .begin_ (h.trans hstay) hbefore hpermitted hbegun hrest

theorem Chronicle.append (h : Chronicle p b es mid) (h' : Chronicle p mid es' b') :
    Chronicle p b (es ++ es') b' := by
  induction h with
  | stay hstay => exact h'.of_stay hstay
  | begin_ hstay hbefore hpermitted hbegun _ ih =>
    exact .begin_ hstay hbefore hpermitted hbegun (ih h')

/-- One generation that begins is told by itself. -/
theorem Chronicle.of_begun {cause : Cause} (hbegun : Begun p b s now r)
    (hpermitted : Permitted cause b.state s) :
    Chronicle p b [⟨cause, b.state, now, r.2⟩] r.2 := by
  obtain rfl := hbegun.state
  exact .begin_ (.refl b) rfl hpermitted ⟨r.1, hbegun⟩ (.refl r.2)

/-! ## What one operation begins -/

theorem chronicle_refresh (p : BreakerPolicy) (b : Breaker) (now : Duration) :
    Chronicle p b (dueBeginning p b now) (refresh p b now).2 := by
  by_cases hdue : IsDue b now
  · have hone (hs : b.state ≠ .halfOpen) :
        dueBeginning p b now = [⟨.due, b.state, now, (refresh p b now).2⟩] :=
      if_pos ⟨hs, isDue_iff.mpr hdue⟩
    cases hs : b.state with
    | halfOpen =>
      have hnone : dueBeginning p b now = [] := if_neg fun h => h.1 hs
      rw [hnone, refresh_of_halfOpen hs]
      exact .refl b
    | closed =>
      rw [hone (by rw [hs]; decide)]
      exact .of_begun (begun_refresh_of_closed hs hdue) (hs ▸ .rollOver)
    | opened =>
      rw [hone (by rw [hs]; decide)]
      exact .of_begun (begun_refresh_of_opened hs hdue) (hs ▸ .probe)
  · have hnone : dueBeginning p b now = [] := if_neg fun h => hdue (isDue_iff.mp h.2)
    rw [hnone, refresh_of_not_isDue hdue]
    exact .refl b

theorem chronicle_settle (p : BreakerPolicy) (b : Breaker) (g : Nat) (success : Bool)
    (now : Duration) :
    Chronicle p b (settleBeginnings p b g success now) (settle p b g success now).2 := by
  apply (chronicle_refresh p b now).append
  rcases settle_cases p b g success now with
    ⟨-, heq⟩ | ⟨-, -, -, heq⟩ | ⟨-, -, hs, hbegun⟩ | ⟨-, -, hs, hbegun⟩
  · rw [heq, if_pos rfl]
    exact .refl _
  · rw [heq, if_pos rfl]
    exact .stay ⟨rfl, rfl, rfl, rfl⟩
  · have hne : (settle p b g success now).2.state ≠ (refresh p b now).2.state := by
      rw [hbegun.state, hs]
      decide
    rw [if_neg hne]
    exact .of_begun hbegun (hs ▸ .recover)
  · have hne : (settle p b g success now).2.state ≠ (refresh p b now).2.state := by
      rw [hbegun.state]
      exact hs.symm
    rw [if_neg hne]
    apply Chronicle.of_begun hbegun
    cases hfrom : (refresh p b now).2.state with
    | closed => exact .trip
    | opened => exact absurd hfrom hs
    | halfOpen => exact .reopen

theorem chronicle_reset (p : BreakerPolicy) (b : Breaker) (now : Duration) :
    Chronicle p b [⟨.reset, b.state, now, (reset p b now).2⟩] (reset p b now).2 :=
  .of_begun (begun_reset p b now) (.reset b.state)

namespace Usage

variable {u : Usage}

/-- The generations that an action begins tell what becomes of the breaker. -/
theorem chronicle_step (p : BreakerPolicy) (u : Usage) (a : Action) :
    Chronicle p u.breaker (u.beginnings p a) (u.step p a).breaker := by
  cases a with
  | enter =>
    have href := chronicle_refresh p u.breaker u.now
    rcases enter_cases p u.breaker u.now with ⟨-, heq⟩ | ⟨-, e, heq⟩ | ⟨panic, -, heq⟩
    · have hcall : Chronicle p (refresh p u.breaker u.now).2 []
          (refresh p u.breaker u.now).2.withCall := .stay ⟨rfl, rfl, rfl, rfl⟩
      have happend := href.append hcall
      rw [List.append_nil] at happend
      simp only [step, heq]
      exact happend
    · simp only [step, heq]
      exact href
    · simp only [step, heq]
      exact href
  | settle call success =>
    by_cases hcall : call ∈ u.inFlight
    · simp only [beginnings, step, if_pos hcall]
      exact chronicle_settle p u.breaker call.generation success u.now
    · simp only [beginnings, step, if_neg hcall]
      exact .refl _
  | read => exact chronicle_refresh p u.breaker u.now
  | reset => exact chronicle_reset p u.breaker u.now
  | wait d => exact .refl _

theorem chronicle_run (p : BreakerPolicy) (u : Usage) (actions : List Action) :
    Chronicle p u.breaker (u.history p actions) (u.run p actions).breaker := by
  induction actions generalizing u with
  | nil => exact .refl _
  | cons a actions ih => exact (chronicle_step p u a).append (ih (u.step p a))

end Usage

/-! ## What a history tells -/

theorem Begun.changes_eq {e : Beginning} {result : Except Panic Unit} (hbefore : e.before = b.state)
    (h : Begun p b e.breaker.state e.instant (result, e.breaker)) :
    e.breaker.changes = b.changes ++ (e.reported? p).toList := by
  refine h.changes.trans ?_
  rw [Beginning.reported?, Beginning.change?, hbefore, ← Beginning.fits]
  by_cases hsame : b.state = e.breaker.state
  · rw [if_neg (fun h => h.1 hsame), if_pos hsame, ite_self]
    exact (List.append_nil _).symm
  · by_cases hfits : e.fits p = true
    · rw [if_pos ⟨hsame, hfits⟩, if_pos hfits, if_neg hsame]
      rfl
    · rw [if_neg (fun h => hfits h.2), if_neg hfits]
      exact (List.append_nil _).symm

/-- The reported changes are those of the generations that have begun with an end of their own. -/
theorem Chronicle.changes_eq (h : Chronicle p b es b') :
    b'.changes = b.changes ++ es.filterMap (Beginning.reported? p) := by
  induction h with
  | stay hstay => rw [hstay.changes, List.filterMap_nil, List.append_nil]
  | @begin_ b mid b' e es hstay hbefore _ hbegun _ ih =>
    obtain ⟨result, hbegun⟩ := hbegun
    rw [ih, hbegun.changes_eq hbefore, hstay.changes, List.append_assoc]
    congr 1
    cases hchange : e.reported? p with
    | none => rw [List.filterMap_cons_none hchange]; rfl
    | some c => rw [List.filterMap_cons_some hchange]; rfl

theorem Chronicle.generation_eq (h : Chronicle p b es b') :
    b'.generation = b.generation + es.length := by
  induction h with
  | stay hstay => exact hstay.generation
  | @begin_ b mid b' e es hstay _ _ hbegun _ ih =>
    obtain ⟨result, hbegun⟩ := hbegun
    have hnext : e.breaker.generation = mid.generation + 1 := hbegun.generation
    rw [ih, hnext, hstay.generation, List.length_cons]
    omega

/-- The changes lead from the first state to the last. -/
theorem Chronicle.isPath (h : Chronicle p b es b') :
    IsPath b.state (es.filterMap Beginning.change?) b'.state := by
  induction h with
  | stay hstay => exact hstay.state.symm
  | @begin_ b mid b' e es hstay hbefore _ _ _ ih =>
    have hfrom : b.state = e.before := by rw [hbefore, hstay.state]
    by_cases hsame : e.before = e.breaker.state
    · have hnone : e.change? = none := if_pos hsame
      rw [List.filterMap_cons_none hnone, hfrom, hsame]
      exact ih
    · have hsome : e.change? = some (e.before, e.breaker.state) := if_neg hsame
      rw [List.filterMap_cons_some hsome]
      exact ⟨hfrom, ih⟩

/-- Every generation begins as it may and with nothing counted. -/
theorem Chronicle.forall_mem (h : Chronicle p b es b') :
    ∀ e ∈ es, Permitted e.cause e.before e.breaker.state ∧ e.breaker.counts = {} := by
  induction h with
  | stay => exact nofun
  | begin_ _ _ hpermitted hbegun _ ih =>
    obtain ⟨result, hbegun⟩ := hbegun
    rw [List.forall_mem_cons]
    exact ⟨⟨hpermitted, hbegun.counts⟩, ih⟩

/-- A generation has an end of its own exactly if that can be told. -/
theorem Begun.expiry_eq_iff {result : Except Panic Unit} (hend : EndFits b)
    (h : Begun p b s now (result, b')) :
    b'.expiry = expiryOf p s now ↔ expiryFits p s now = true := by
  have hexpiry : b'.expiry = if expiryFits p s now then expiryOf p s now else b.expiry := h.expiry
  rw [hexpiry]
  by_cases hfits : expiryFits p s now = true
  · simp only [hfits, if_true]
  · rw [if_neg hfits]
    refine ⟨fun hsame => ?_, fun h => absurd h hfits⟩
    -- the end that is kept can be told
    rw [expiryFits, ← hsame, Option.all_eq_true] at hfits
    exact absurd hend hfits

/-- Up to the first generation without one, every generation has an end of its own. -/
theorem Chronicle.expiry_eq_iff (h : Chronicle p b es b') (hend : EndFits b) :
    ∀ e ∈ es, e.breaker.expiry = expiryOf p e.breaker.state e.instant ↔ e.fits p = true := by
  induction h with
  | stay => exact nofun
  | @begin_ b mid b' e es hstay _ _ hbegun _ ih =>
    obtain ⟨result, hbegun⟩ := hbegun
    have hmid : EndFits mid := fun expiry he => hend expiry (hstay.expiry ▸ he)
    rw [List.forall_mem_cons]
    exact ⟨hbegun.expiry_eq_iff hmid, ih (endFits_of_begun hmid hbegun)⟩

/-- What was so right after the last beginning is so still, but for what was counted. -/
theorem Chronicle.sameStay (h : Chronicle p b es b') :
    SameStay ((es.getLast?.map Beginning.breaker).getD b) b' := by
  induction h with
  | stay hstay => exact hstay
  | @begin_ b mid b' e es _ _ _ _ _ ih =>
    rw [List.getLast?_cons, Option.map_some, Option.getD_some]
    cases hlast : es.getLast? with
    | none => rw [hlast] at ih; exact ih
    | some last => rw [hlast] at ih; exact ih

/-- A generation that begins is a change of state, the end of an interval or the reset of a closed
breaker. -/
theorem Permitted.count_eq {e : Beginning} (h : Permitted e.cause e.before e.breaker.state) :
    e.change?.toList.length + (if e.isRollover then 1 else 0) + (if e.isRenewal then 1 else 0) =
      1 := by
  rcases e with ⟨cause, before, instant, breaker⟩
  simp only [Beginning.change?, Beginning.isRollover, Beginning.isRenewal] at h ⊢
  generalize breaker.state = into at h ⊢
  cases h with
  | rollOver | probe | trip | reopen | recover => rfl
  | reset => cases before <;> rfl

theorem length_eq_count (h : ∀ e ∈ es, Permitted e.cause e.before e.breaker.state) :
    es.length = (es.filterMap Beginning.change?).length + es.countP Beginning.isRollover +
      es.countP Beginning.isRenewal := by
  induction es with
  | nil => rfl
  | cons e es ih =>
    rw [List.forall_mem_cons] at h
    have hone := h.1.count_eq
    have hrest := ih h.2
    have hchanges : ((e :: es).filterMap Beginning.change?).length =
        e.change?.toList.length + (es.filterMap Beginning.change?).length := by
      cases hchange : e.change? with
      | none =>
        rw [List.filterMap_cons_none hchange]
        exact (Nat.zero_add _).symm
      | some c =>
        rw [List.filterMap_cons_some hchange]
        exact Nat.add_comm _ _
    rw [List.length_cons, hchanges, List.countP_cons, List.countP_cons]
    omega

/-- The only changes of state. -/
theorem Permitted.change_cases {e : Beginning} {c : BreakerState × BreakerState}
    (h : Permitted e.cause e.before e.breaker.state) (hc : e.change? = some c) :
    c = (.closed, .opened) ∨ c = (.opened, .halfOpen) ∨ c = (.halfOpen, .opened) ∨
      c = (.halfOpen, .closed) ∨ (c = (.opened, .closed) ∧ e.cause = .reset) := by
  rcases e with ⟨cause, before, instant, breaker⟩
  simp only [Beginning.change?] at h hc ⊢
  generalize breaker.state = into at h hc
  cases h with
  | rollOver => cases hc
  | probe | trip | reopen | recover => cases hc; decide
  | reset =>
    cases before with
    | closed => cases hc
    | opened | halfOpen => cases hc; decide

namespace Usage

/-- **The life of a breaker.** Whatever is done to a breaker, the changes of its state in its history
lead from closed to its present state, each from where the one before has led. They are of five kinds,
of which going from open to closed at once is by a reset only. Its generation is the number of the
changes, of the intervals that have come to their end and of the resets of a closed breaker, and never
decreases. Each of these leaves counts of zero; up to the next one the breaker only counts.

What the breaker reports are the changes that begin a generation whose end can be told. The reported
changes are such a path to the present state, make up the generation, and each beginning leaves an end
that belongs to the state and to the instant, exactly if every end in the history can be told. -/
theorem history_of_changes_iff (p : BreakerPolicy) (start : Duration)
    (hstart : expiryFits p .closed start = true) (actions : List Action) :
    let u := (fresh p start).run p actions
    let history := (fresh p start).history p actions
    IsPath .closed (history.filterMap Beginning.change?) u.breaker.state ∧
    (∀ e ∈ history, ∀ c, e.change? = some c →
      c = (.closed, .opened) ∨ c = (.opened, .halfOpen) ∨ c = (.halfOpen, .opened) ∨
        c = (.halfOpen, .closed) ∨ (c = (.opened, .closed) ∧ e.cause = .reset)) ∧
    u.breaker.generation = (history.filterMap Beginning.change?).length +
      history.countP Beginning.isRollover + history.countP Beginning.isRenewal ∧
    (∀ later, u.breaker.generation ≤ (u.run p later).breaker.generation) ∧
    (∀ e ∈ history, e.breaker.counts = {}) ∧
    SameStay ((history.getLast?.map Beginning.breaker).getD (Breaker.start p start)) u.breaker ∧
    u.breaker.changes = history.filterMap (Beginning.reported? p) ∧
    ((IsPath .closed u.breaker.changes u.breaker.state ∧
      u.breaker.generation = u.breaker.changes.length + history.countP Beginning.isRollover +
        history.countP Beginning.isRenewal ∧
      ∀ e ∈ history, e.breaker.expiry = match e.breaker.state with
        | .opened => some (e.instant + p.openTimeout)
        | .halfOpen => none
        | .closed => if p.interval = 0 then none else some (e.instant + p.interval)) ↔
      ∀ e ∈ history, expiryFits p e.breaker.state e.instant = true) := by
  intro u history
  have h : Chronicle p (Breaker.start p start) history u.breaker :=
    chronicle_run p (fresh p start) actions
  have hmem := h.forall_mem
  have hgeneration : u.breaker.generation = (history.filterMap Beginning.change?).length +
      history.countP Beginning.isRollover + history.countP Beginning.isRenewal := by
    have hlength : u.breaker.generation = 0 + history.length := h.generation_eq
    rw [hlength, Nat.zero_add]
    exact length_eq_count fun e he => (hmem e he).1
  have hend : ∀ e ∈ history, e.breaker.expiry = (match e.breaker.state with
      | .opened => some (e.instant + p.openTimeout)
      | .halfOpen => none
      | .closed => if p.interval = 0 then none else some (e.instant + p.interval)) ↔
        expiryFits p e.breaker.state e.instant = true := by
    intro e he
    rw [← Beginning.fits, ← h.expiry_eq_iff (endFits_run hstart []) e he]
    cases e.breaker.state <;> rfl
  refine ⟨h.isPath, fun e he c hc => (hmem e he).1.change_cases hc, hgeneration, fun later => ?_,
    fun e he => (hmem e he).2, h.sameStay, h.changes_eq, ⟨?_, ?_⟩⟩
  · rw [(chronicle_run p u later).generation_eq]
    exact Nat.le_add_right _ _
  · rintro ⟨-, -, hexpiry⟩ e he
    exact (hend e he).mp (hexpiry e he)
  · intro hfits
    -- what can be told is reported
    have hchanges : u.breaker.changes = history.filterMap Beginning.change? :=
      h.changes_eq.trans (List.filterMap_congr fun e he => if_pos (hfits e he))
    rw [hchanges]
    exact ⟨h.isPath, hgeneration, fun e he => (hend e he).mpr (hfits e he)⟩

/-- A breaker that one failure opens and that is reset has begun two generations, and the changes that
it has reported lead from closed to closed. -/
theorem history_of_changes_iff_reset :
    let p : BreakerPolicy :=
      { name := "backend", interval := 10, timeout := 5,
        trips := some (BreakerPolicy.consecutive 0) }
    let actions : List Action := [.enter, .settle ⟨.closed, 0⟩ false, .reset]
    let u := (fresh p 0).run p actions
    u.breaker.changes = [(.closed, .opened), (.opened, .closed)] ∧
      u.breaker.generation = 2 ∧ IsPath .closed u.breaker.changes u.breaker.state := by
  intro p actions u
  have hchanges : u.breaker.changes = [(.closed, .opened), (.opened, .closed)] := by decide
  have hgeneration : u.breaker.generation = 2 := by decide
  have hlaw := (history_of_changes_iff p 0 (by decide) actions).2.2.2.2.2.2.2.mpr (by decide)
  exact ⟨hchanges, hgeneration, hlaw.1⟩

/-- A breaker whose interval is 5 s and whose timeout is 10 ^ 19 s opens at second 1 without a report,
keeps the end of its interval, and reports at second 5 that it goes from open to half open. -/
theorem opened_without_report :
    let p : BreakerPolicy :=
      { name := "backend", interval := Duration.ofSeconds 5
        timeout := Duration.ofSeconds 10000000000000000000
        trips := some (BreakerPolicy.consecutive 0) }
    let u := (fresh p 0).run p
      [.wait (Duration.ofSeconds 1), .enter, .settle ⟨.closed, 0⟩ false]
    let v := u.run p [.wait (Duration.ofSeconds 4), .read]
    (u.breaker.state = .opened ∧ u.breaker.generation = 1 ∧
        u.breaker.expiry = some (Duration.ofSeconds 5) ∧ u.breaker.changes = []) ∧
      v.breaker.state = .halfOpen ∧ v.breaker.changes = [(.opened, .halfOpen)] ∧
      ¬ IsPath .closed v.breaker.changes v.breaker.state := by
  refine ⟨by decide, by decide, by decide, ?_⟩
  rintro ⟨hfrom, -⟩
  cases hfrom

end Usage

end Gatehouse.Breaker
