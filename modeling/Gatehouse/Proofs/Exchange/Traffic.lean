import Gatehouse.Proofs.Exchange.Stage

/-!
# Exchanges that overlap

Any number of exchanges go over one route, each with steps of its own, and between two steps of one
the others may take theirs. `Traffic` is the world with the exchanges that have come, and a ledger
of what they did to the breaker of the route; `Traffic.step` is what one move of an exchange, of
its caller, of the clock or of others does, and `Traffic.run` takes moves in any order. `Accounted`
says by the stage of an exchange all that it has done to the breaker, and every run keeps it.
-/

namespace Gatehouse

namespace Gateway

/-! ## What an exchange has done to the breaker -/

/-- Whether a response has a status of a server error. -/
def IsServerError (r : Response) : Prop := 500 ≤ r.status ∧ r.status < 600

namespace Stage

/-- Whether an exchange at a stage has not asked the breaker. -/
inductive IsUnasked : Stage → Prop
  | before (rest : List Filter) : IsUnasked (.before rest)
  | asking (o : Outgoing) : IsUnasked (.asking o)
  | stoppedBefore (at_ : Filter × Filter.Fault) : IsUnasked (.finished (some (.before at_)))
  | unbuilt (e : Error) : IsUnasked (.finished (some (.unbuilt e)))

/-- Whether an exchange at a stage has a response. -/
inductive IsAnswered : Stage → Prop
  | after (rest : List Filter) : IsAnswered (.after rest)
  | through : IsAnswered (.finished none)
  | stoppedAfter (at_ : Filter × Filter.Fault) : IsAnswered (.finished (some (.after at_)))

end Stage

/-- What an exchange has done to the breaker, by its stage and by whether its future was dropped
there. -/
inductive Accounted (client : Receiver) : Bool → Stage → List Deed → Prop
  | unasked {dropped : Bool} {stage : Stage} : stage.IsUnasked → Accounted client dropped stage []
  | asked {dropped : Bool} : Accounted client dropped (.finished (some .overflowed)) [.asked]
  | refused {dropped : Bool} {e : Error} :
      Accounted client dropped (.finished (some (.backend e))) [.refused]
  | waiting {g : Nat} {c : Call} : c.client = client →
      Accounted client false (.waiting (some g) c) [.admitted g c]
  | dropped {g : Nat} {c : Call} : c.client = client →
      Accounted client true (.waiting (some g) c) [.admitted g c, .reported g false]
  | unanswered {dropped : Bool} {g : Nat} {c : Call} {stop : Stop} : c.client = client →
      (∀ r, ¬ c.IsAnswered r) → missing c.ended = some stop →
      Accounted client dropped (.finished (some stop)) [.admitted g c, .reported g false]
  | unreported {dropped success : Bool} {g : Nat} {c : Call} : c.client = client →
      (success = true ↔ ∃ r, c.IsAnswered r ∧ ¬ IsServerError r) →
      Accounted client dropped (.finished (some .overflowed)) [.admitted g c, .reported g success]
  | answered {dropped success : Bool} {stage : Stage} {g : Nat} {c : Call} {r : Response} :
      c.client = client → c.IsAnswered r → (success = true ↔ ¬ IsServerError r) →
      stage.IsAnswered → Accounted client dropped stage [.admitted g c, .reported g success]

variable {client : Receiver} {route : Route} {chain : List Filter} {b : RouteBreaker}
  {p : BreakerPolicy} {c : Call} {stage : Stage} {deeds : List Deed} {r : Response} {w : World}
  {x : Exchange}

/-- A call that misses a response has failed. -/
theorem Call.succeeds_of_missing {stop : Stop} (hdefault : p.forgives = none)
    (h : missing c.ended = some stop) : c.fate.succeeds p = false := by
  rw [fate]
  match hended : c.ended with
  | .givenUp | .done _ (.ok .panicked) => rfl
  | .done _ (.error e) =>
    simp only [Breaker.CallFate.succeeds, BreakerPolicy.forgivesError, hdefault, Option.getD_none]
  | .done _ (.ok (.response r)) =>
    rw [hended] at h
    cases h

/-- A call that is answered succeeds unless the answer is a server error. -/
theorem Call.succeeds_of_response {now : Instant} (hdefault : p.forgives = none)
    (h : c.ended = .done now (.ok (.response r))) :
    c.fate.succeeds p = true ↔ ¬ IsServerError r := by
  rw [fate, h]
  simp only [statusFailure]
  by_cases hstatus : 500 ≤ r.status ∧ r.status < 600
  · simp [Breaker.CallFate.succeeds, BreakerPolicy.forgivesError, hdefault, IsServerError, hstatus]
  · rw [if_neg hstatus]
    exact iff_of_true rfl hstatus

theorem Call.not_isAnswered_of_missing {stop : Stop} (h : missing c.ended = some stop)
    (r : Response) : ¬ c.IsAnswered r := by
  rw [isAnswered_iff]
  rintro ⟨now, hended⟩
  rw [hended] at h
  cases h

/-- A call succeeds exactly if it is answered, and not with a server error. -/
theorem Call.succeeds_iff (hdefault : p.forgives = none) :
    c.fate.succeeds p = true ↔ ∃ r, c.IsAnswered r ∧ ¬ IsServerError r := by
  cases hmissing : missing c.ended with
  | none =>
    obtain ⟨now, r, hended⟩ := exists_response hmissing
    rw [succeeds_of_response hdefault hended]
    refine ⟨fun hcalm => ⟨r, isAnswered_iff.mpr ⟨now, hended⟩, hcalm⟩, ?_⟩
    rintro ⟨r', hanswered, hcalm⟩
    obtain ⟨now', hended'⟩ := isAnswered_iff.mp hanswered
    cases hended.symm.trans hended'
    exact hcalm
  | some stop =>
    rw [succeeds_of_missing hdefault hmissing]
    refine ⟨nofun, ?_⟩
    rintro ⟨r, hanswered, -⟩
    exact absurd hanswered (not_isAnswered_of_missing hmissing r)

/-- A call that is answered takes the exchange to the hooks after the response, whatever its
status, unless its report overflows. -/
theorem conclude_of_isAnswered (chain : List Filter) (w : World) (x : Exchange)
    (h : c.IsAnswered r) :
    conclude chain c.ended (.ok ()) w x = ⟨w, x.answeredBy r, .after chain.reverse⟩ ∧
      ∀ panic, conclude chain c.ended (.error panic) w x = ⟨w, x, .finished (some .overflowed)⟩ := by
  obtain ⟨now, hended⟩ := Call.isAnswered_iff.mp h
  rw [hended]
  exact ⟨rfl, fun _ => rfl⟩

theorem Accounted.passHook {hook : Filter → World → Exchange → HookResult} {event : String → Hook}
    {stopped : Filter × Filter.Fault → Stop} {f : Filter} {next : Stage}
    (hnext : Accounted client false next deeds)
    (hstopped : ∀ s, Accounted client false (.finished (some (stopped s))) deeds) :
    Accounted client false (passHook hook event stopped f next w x).stage deeds := by
  rw [Gateway.passHook]
  split
  · exact hnext
  · exact hstopped _
  · exact hstopped _
  · exact hstopped _

/-- The end of a call is reported exactly once, whatever the report comes to. -/
theorem Accounted.conclude {g : Nat} (hdefault : p.forgives = none) (hc : c.client = client)
    (chain : List Filter) (reported : Except Panic Unit) (w : World) (x : Exchange) :
    Accounted client false (Gateway.conclude chain c.ended reported w x).stage
      [.admitted g c, .reported g (c.fate.succeeds p)] := by
  cases hmissing : missing c.ended with
  | none =>
    obtain ⟨now, r, hended⟩ := exists_response hmissing
    have hanswered : c.IsAnswered r := Call.isAnswered_iff.mpr ⟨now, hended⟩
    obtain ⟨hok, hoverflow⟩ := conclude_of_isAnswered chain w x hanswered
    cases reported with
    | ok =>
      rw [hok]
      exact .answered hc hanswered (Call.succeeds_of_response hdefault hended) (.after _)
    | error panic =>
      rw [hoverflow panic]
      exact .unreported hc (Call.succeeds_iff hdefault)
  | some stop =>
    have hunanswered {stop : Stop} (hmissing : missing c.ended = some stop)
        (hreported : stop = .gone ∨ reported = .ok ()) :
        Accounted client false (Gateway.conclude chain c.ended reported w x).stage
          [.admitted g c, .reported g (c.fate.succeeds p)] := by
      rw [conclude_of_missing chain w x hmissing hreported,
        Call.succeeds_of_missing hdefault hmissing]
      exact .unanswered hc (Call.not_isAnswered_of_missing hmissing) hmissing
    by_cases hgone : stop = .gone
    · exact hunanswered hmissing (.inl hgone)
    · cases reported with
      | ok => exact hunanswered hmissing (.inr rfl)
      | error panic =>
        rw [conclude_of_overflow chain w x fun h => hgone (Option.some.inj (hmissing.symm.trans h))]
        exact .unreported hc (Call.succeeds_iff hdefault)

/-- A step of an exchange adds to what it has done to the breaker what the step does to it. -/
theorem Accounted.advance (hb : route.breaker = some b) (hdefault : b.policy.forgives = none)
    (h : Accounted client false stage deeds) (chain : List Filter) (w : World) (x : Exchange) :
    Accounted client false (advance client route chain ⟨w, x, stage⟩).1.stage
      (deeds ++ (advance client route chain ⟨w, x, stage⟩).2.toList) := by
  cases h with
  | unasked hstage =>
    cases hstage with
    | before rest =>
      cases rest with
      | nil =>
        simp only [Gateway.advance, build]
        split
        · exact .unasked (.unbuilt _)
        · exact .unasked (.asking _)
      | cons f rest =>
        exact Accounted.passHook (.unasked (.before rest)) fun s => .unasked (.stoppedBefore s)
    | asking o =>
      simp only [Gateway.advance, ask, hb]
      split
      · exact .asked
      · exact .refused
      · exact .waiting rfl
    | stoppedBefore s => exact .unasked (.stoppedBefore s)
    | unbuilt e => exact .unasked (.unbuilt e)
  | asked => exact .asked
  | refused => exact .refused
  | waiting hc =>
    simp only [Gateway.advance, report, hb]
    exact Accounted.conclude hdefault hc _ _ _ _
  | unreported hc hsuccess => exact .unreported hc hsuccess
  | unanswered hc hnot hmissing => exact .unanswered hc hnot hmissing
  | @answered _ success _ g c r hc hanswered hsuccess hstage =>
    -- the outcome was reported with the end of the call, so that a hook that fails comes too late
    have hkept (next : Stage) (hnext : next.IsAnswered) :
        Accounted client false next [.admitted g c, .reported g success] :=
      .answered hc hanswered hsuccess hnext
    cases hstage with
    | after rest =>
      cases rest with
      | nil => exact hkept _ .through
      | cons f rest =>
        exact Accounted.passHook (hkept _ (.after rest)) fun s => hkept _ (.stoppedAfter s)
    | through => exact hkept _ .through
    | stoppedAfter s => exact hkept _ (.stoppedAfter s)

/-- An exchange whose future is dropped has failed if its call was let through and has not come to
an end, and otherwise has done what it had done. -/
theorem Accounted.abandon (hb : route.breaker = some b) (h : Accounted client false stage deeds)
    (w : World) : Accounted client true stage (deeds ++ (abandon route stage w).2.toList) := by
  cases h with
  | unasked hstage => cases hstage <;> exact .unasked (by constructor)
  | asked => exact .asked
  | refused => exact .refused
  | waiting hc =>
    simp only [Gateway.abandon, report, hb]
    exact .dropped hc
  | unreported hc hsuccess => exact .unreported hc hsuccess
  | unanswered hc hnot hmissing => exact .unanswered hc hnot hmissing
  | answered hc hanswered hsuccess hstage =>
    cases hstage <;> exact .answered hc hanswered hsuccess (by constructor)

theorem mem_rest_passHook {hook : Filter → World → Exchange → HookResult} {event : String → Hook}
    {stopped : Filter × Filter.Fault → Stop} {f : Filter} {next : Stage}
    (hnext : ∀ g ∈ next.rest, g ∈ chain) :
    ∀ g ∈ (passHook hook event stopped f next w x).stage.rest, g ∈ chain := by
  rw [passHook]
  split
  · exact hnext
  · exact List.forall_mem_nil _
  · exact List.forall_mem_nil _
  · exact List.forall_mem_nil _

/-- The hooks that are still to run after a step are of the chain. -/
theorem mem_rest_advance (client : Receiver) (route : Route) (w : World) (x : Exchange)
    (hrest : ∀ f ∈ stage.rest, f ∈ chain) :
    ∀ f ∈ (advance client route chain ⟨w, x, stage⟩).1.stage.rest, f ∈ chain := by
  have hnil : ∀ f ∈ [], f ∈ chain := List.forall_mem_nil _
  cases stage with
  | before rest =>
    cases rest with
    | nil =>
      simp only [advance, build]
      split <;> exact hnil
    | cons f rest => exact mem_rest_passHook fun g hg => hrest g (List.mem_cons_of_mem _ hg)
  | asking o =>
    simp only [advance, ask]
    split
    · exact hnil
    · split <;> exact hnil
  | waiting generation c =>
    simp only [advance]
    rw [conclude.eq_def]
    split
    · exact hnil
    · exact hnil
    · exact hnil
    · exact hnil
    · exact fun f hf => List.mem_reverse.mp hf
  | after rest =>
    cases rest with
    | nil => exact hnil
    | cons f rest => exact mem_rest_passHook fun g hg => hrest g (List.mem_cons_of_mem _ hg)
  | finished stop => exact hnil

/-- A report overflows only if it begins a generation whose end cannot be told. -/
theorem report_cases (hb : route.breaker = some b) (generation : Option Nat)
    (fate : Breaker.CallFate Response) (w : World) :
    (report route generation fate w).1 = .ok () ∨
      ((report route generation fate w).1 = .error .overflow ∧
        ∃ s t, Breaker.expiryFits b.policy s t = false) := by
  cases generation with
  | none =>
    simp only [report, hb]
    exact .inl trivial
  | some g =>
    simp only [report, hb]
    rcases Breaker.settle_result_cases b.policy (w.breaker b.begun route.id) g
      (fate.succeeds b.policy) w.clock.now with hok | ⟨hoverflow, s, hunfit⟩
    · exact .inl hok
    · exact .inr ⟨hoverflow, s, _, hunfit⟩

/-- The step with which a call ends that is answered. -/
theorem advance_of_isAnswered (hb : route.breaker = some b) (chain : List Filter) (w : World)
    (x : Exchange) (g : Option Nat) (h : c.IsAnswered r) :
    let reported := (report route g c.fate (worldAt c.ended w)).1
    let next := (advance client route chain ⟨w, x, .waiting g c⟩).1
    ((∃ w', next = ⟨w', x.answeredBy r, .after chain.reverse⟩) ↔ reported = .ok ()) ∧
    (reported = .ok () ∨ ((∃ w', next = ⟨w', x, .finished (some .overflowed)⟩) ∧
      ∃ s t, Breaker.expiryFits b.policy s t = false)) := by
  intro reported next
  have hnext : next = conclude chain c.ended reported
      (report route g c.fate (worldAt c.ended w)).2.1 x := rfl
  obtain ⟨hok, hoverflow⟩ :=
    conclude_of_isAnswered chain (report route g c.fate (worldAt c.ended w)).2.1 x h
  rcases report_cases hb g c.fate (worldAt c.ended w) with hreported | ⟨hreported, hunfit⟩
  · rw [hnext, show reported = .ok () from hreported]
    exact ⟨iff_of_true ⟨_, hok⟩ rfl, .inl rfl⟩
  · rw [hnext, show reported = .error .overflow from hreported, hoverflow]
    refine ⟨iff_of_false ?_ nofun, .inr ⟨⟨_, rfl⟩, hunfit⟩⟩
    rintro ⟨w', hw'⟩
    cases congrArg Position.stage hw'

/-! ## The ledger -/

/-- Whether a call is let through. -/
def Deed.isAdmission : Deed → Bool
  | .admitted _ _ => true
  | _ => false

/-- Only a call that is let through is added to the calls in total. -/
theorem Deed.Does.totalRequests {d : Deed} {b b' : Breaker} {now : Duration}
    (h : d.Does p b now b') :
    b'.totalRequests = b.totalRequests + if d.isAdmission then 1 else 0 := by
  cases h with
  | asked => exact Breaker.totalRequests_refresh p b now
  | refused => exact Breaker.totalRequests_refresh p b now
  | admitted => exact congrArg (· + 1) (Breaker.totalRequests_refresh p b now)
  | reported => exact Breaker.totalRequests_settle p b _ _ now
  | read => exact Breaker.totalRequests_refresh p b now
  | reset => exact (Breaker.begun_reset p b now).totalRequests

/-- A deed that is done at an instant, by an exchange or by someone else. -/
structure Entry where
  passage : Option Nat
  instant : Duration
  deed : Deed

namespace Entry

/-- What an exchange did, by a ledger. -/
def deedsOf (i : Nat) (ledger : List Entry) : List Deed :=
  (ledger.filter (·.passage == some i)).map (·.deed)

/-- The entry of a deed, if there is one. -/
def ofDeed (passage : Option Nat) (now : Duration) (deed : Option Deed) : List Entry :=
  (deed.map fun d => ⟨passage, now, d⟩).toList

theorem passage_of_mem_ofDeed {passage : Option Nat} {now : Duration} {deed : Option Deed}
    {e : Entry} (h : e ∈ ofDeed passage now deed) : e.passage = passage := by
  cases deed with
  | none => cases h
  | some d => cases List.mem_singleton.mp h; rfl

/-- The entries of a ledger lead from a breaker to another one. -/
inductive Lead (p : BreakerPolicy) (b : Breaker) : List Entry → Breaker → Prop
  | none : Lead p b [] b
  | concat {ledger : List Entry} {e : Entry} {b₁ b₂ : Breaker} :
      Lead p b ledger b₁ → e.deed.Does p b₁ e.instant b₂ → Lead p b (ledger ++ [e]) b₂

variable {b b₁ b₂ : Breaker} {i j : Nat} {passage : Option Nat} {now : Duration}
  {deed : Option Deed} {ledger : List Entry}

theorem deedsOf_append_self :
    deedsOf i (ledger ++ ofDeed (some i) now deed) = deedsOf i ledger ++ deed.toList := by
  rw [deedsOf, List.filter_append, List.map_append]
  cases deed with
  | none => rfl
  | some d => simp [ofDeed, deedsOf]

theorem deedsOf_append_of_ne (h : passage ≠ some i) :
    deedsOf i (ledger ++ ofDeed passage now deed) = deedsOf i ledger := by
  rw [deedsOf, List.filter_append, List.map_append]
  cases deed with
  | none => exact List.append_nil _
  | some d => simp [ofDeed, deedsOf, h]

/-- An exchange that no entry is of has done nothing. -/
theorem deedsOf_eq_nil (h : ∀ e ∈ ledger, e.passage ≠ some i) : deedsOf i ledger = [] := by
  rw [deedsOf, List.map_eq_nil_iff, List.filter_eq_nil_iff]
  exact fun e he => by simpa using h e he

theorem Lead.append (h : Lead p b ledger b₁) (hdeed : Deed.Leaves p b₁ now deed b₂) :
    Lead p b (ledger ++ ofDeed passage now deed) b₂ := by
  cases deed with
  | none =>
    cases hdeed
    rwa [ofDeed, Option.map_none, Option.toList_none, List.append_nil]
  | some d => exact h.concat hdeed

theorem Lead.totalRequests (h : Lead p b ledger b₁) :
    b₁.totalRequests = b.totalRequests + ledger.countP (·.deed.isAdmission) := by
  induction h with
  | none => rfl
  | concat _ hdoes ih =>
    rw [hdoes.totalRequests, ih, List.countP_append, List.countP_singleton, Nat.add_assoc]

end Entry

/-! ## Moves -/

/-- An exchange that has come, with a timeline of its own. -/
structure Passage where
  client : Receiver
  exchange : Exchange
  now : Instant
  gone : Option Instant
  stage : Stage
  /-- Whether the future of the exchange was dropped, at the stage at which it then stays. -/
  dropped : Bool := false

/-- The world with the exchanges that have come to a route, and what was done to its breaker. -/
structure Traffic where
  world : World
  passages : List Passage := []
  ledger : List Entry := []

/-- What exchanges, their callers, the clock and others do. -/
inductive Move
  /-- An exchange comes, to be sent by a client. -/
  | arrive (client : Receiver) (x : Exchange) (now : Instant) (gone : Option Instant)
  /-- An exchange takes its next step. -/
  | advance (i : Nat)
  /-- The future of an exchange is dropped. -/
  | drop (i : Nat)
  /-- The state or the metrics of the breaker are read. -/
  | read
  | reset
  /-- Time passes. -/
  | wait (d : Duration)
  /-- Others do something that neither the clock nor the breaker of the route has to do with. -/
  | elsewhere (f : World → World)

namespace Traffic

section Step

variable (route : Route) (chain : List Filter)

/-- The world after something that leaves the clock and the breaker of the route. -/
def around (f : World → World) (w : World) : World :=
  { f w with
    clock := w.clock
    breakers := ((w.breakers.lookup route.id).map (route.id, ·)).toList ++
      (f w).breakers.filter fun (r, _) => r != route.id }

/-- Puts an exchange where it has come to, with what it did to the breaker. -/
def put (t : Traffic) (i : Nat) (w : World) (q : Passage) (deed : Option Deed) : Traffic where
  world := w
  passages := t.passages.set i q
  ledger := t.ledger ++ Entry.ofDeed (some i) t.world.clock.now deed

/-- Does something to the breaker of the route that is no exchange's. -/
def touch (t : Traffic)
    (f : BreakerPolicy → Breaker → Duration → Except Panic Unit × Breaker) (deed : Deed) :
    Traffic :=
  match route.breaker with
  | none => t
  | some b =>
    { t with
      world := t.world.keepBreaker route.id
        (f b.policy (t.world.breaker b.begun route.id) t.world.clock.now).2
      ledger := t.ledger ++ Entry.ofDeed none t.world.clock.now (some deed) }

/-- Takes an exchange one step further in the world as it is, on the timeline of the exchange. It is
not the step that moves the clock, as others may take theirs meanwhile. -/
def advance (t : Traffic) (i : Nat) (q : Passage) : Traffic :=
  let (s, deed) := Gateway.advance q.client route chain
    ⟨{ t.world with clockRuns := false, now := q.now, gone := q.gone }, q.exchange, q.stage⟩
  t.put i { s.world with clockRuns := t.world.clockRuns, now := t.world.now, gone := t.world.gone }
    { q with exchange := s.exchange, now := s.world.now, gone := s.world.gone, stage := s.stage }
    deed

/-- Drops the future of an exchange. -/
def drop (t : Traffic) (i : Nat) (q : Passage) : Traffic :=
  let (w, deed) := abandon route q.stage t.world
  t.put i w { q with dropped := true } deed

/-- What one move does; an exchange that is not there, or was dropped, makes none. -/
def step (t : Traffic) : Move → Traffic
  | .arrive client x now gone =>
    { t with passages := t.passages ++ [⟨client, x, now, gone, .before chain, false⟩] }
  | .advance i =>
    match t.passages[i]? with
    | some q => if q.dropped then t else t.advance route chain i q
    | none => t
  | .drop i =>
    match t.passages[i]? with
    | some q => if q.dropped then t else t.drop route i q
    | none => t
  | .read => t.touch route (fun p b now => b.refresh p now) .read
  | .reset => t.touch route (fun p b now => b.reset p now) .reset
  | .wait d => { t with world := { t.world with clock := t.world.clock.advance d } }
  | .elsewhere f => { t with world := around route f t.world }

/-- What a sequence of moves does. -/
def run (t : Traffic) (moves : List Move) : Traffic := moves.foldl (step route chain) t

end Step

/-- The breaker is what the ledger makes of it, and the ledger accounts for every exchange. -/
structure Sound (route : Route) (chain : List Filter) (p : BreakerPolicy) (first : Breaker)
    (t : Traffic) : Prop where
  breaker : ∃ present, t.world.breakers.lookup route.id = some present ∧
    Entry.Lead p first t.ledger present
  known : ∀ e ∈ t.ledger, ∀ i, e.passage = some i → i < t.passages.length
  outside : ∀ e ∈ t.ledger, e.passage = none → e.deed = .read ∨ e.deed = .reset
  rest : ∀ q ∈ t.passages, ∀ f ∈ q.stage.rest, f ∈ chain
  accounted : ∀ i (q : Passage), t.passages[i]? = some q →
    Accounted q.client q.dropped q.stage (Entry.deedsOf i t.ledger)

variable {first : Breaker} {t : Traffic} {i : Nat} {q q' : Passage} {deed : Option Deed}

theorem sound_start (route : Route) (chain : List Filter) (p : BreakerPolicy) (first : Breaker)
    (w : World) : Sound route chain p first { world := w.keepBreaker route.id first } where
  breaker := ⟨first, World.lookup_keepBreaker _ _ _, .none⟩
  known _ he := nomatch he
  outside _ he := nomatch he
  rest _ hq := nomatch hq
  accounted i q hq := by
    rw [List.getElem?_nil] at hq
    cases hq

/-- What an exchange does is entered for it, and leaves what the others have done. -/
theorem Sound.put (h : Sound route chain p first t) (hq : t.passages[i]? = some q)
    (hbreaker : ∀ b₁, t.world.breakers.lookup route.id = some b₁ →
      ∃ b₂, w.breakers.lookup route.id = some b₂ ∧
        Deed.Leaves p b₁ t.world.clock.now deed b₂)
    (hrest : ∀ f ∈ q'.stage.rest, f ∈ chain)
    (haccounted : Accounted q'.client q'.dropped q'.stage
      (Entry.deedsOf i t.ledger ++ deed.toList)) :
    Sound route chain p first (t.put i w q' deed) where
  breaker := by
    obtain ⟨b₁, hb₁, hlead⟩ := h.breaker
    obtain ⟨b₂, hb₂, hdeed⟩ := hbreaker b₁ hb₁
    exact ⟨b₂, hb₂, hlead.append hdeed⟩
  known e he j hj := by
    rw [Traffic.put, List.length_set]
    rcases List.mem_append.mp he with he | he
    · exact h.known e he j hj
    · have hpassage := Entry.passage_of_mem_ofDeed he
      rw [hj, Option.some.injEq] at hpassage
      exact hpassage ▸ (List.getElem?_eq_some_iff.mp hq).1
  outside e he hnone := by
    rcases List.mem_append.mp he with he | he
    · exact h.outside e he hnone
    · have hpassage := Entry.passage_of_mem_ofDeed he
      rw [hnone] at hpassage
      cases hpassage
  rest r hr := by
    rcases List.mem_or_eq_of_mem_set hr with hr | rfl
    · exact h.rest r hr
    · exact hrest
  accounted j r hr := by
    -- the entry is of the exchange that moved, and no part of what any other has done
    rw [Traffic.put, List.getElem?_set] at hr
    by_cases hij : i = j
    · rw [if_pos hij, if_pos (List.getElem?_eq_some_iff.mp hq).1, Option.some.injEq] at hr
      cases hr
      rw [← hij, Traffic.put, Entry.deedsOf_append_self]
      exact haccounted
    · rw [if_neg hij] at hr
      rw [Traffic.put, Entry.deedsOf_append_of_ne (by simpa using hij)]
      exact h.accounted j r hr

/-- What others do to the breaker is entered for nobody. -/
theorem Sound.touch {f : BreakerPolicy → Breaker → Duration → Except Panic Unit × Breaker} {d : Deed}
    (h : Sound route chain b.policy first t) (hb : route.breaker = some b)
    (hdoes : ∀ present now, d.Does b.policy present now (f b.policy present now).2) (hd : d = .read ∨ d = .reset) :
    Sound route chain b.policy first (t.touch route f d) := by
  obtain ⟨b₁, hb₁, hlead⟩ := h.breaker
  simp only [Traffic.touch, hb, World.breaker_of_lookup hb₁]
  exact {
    breaker := ⟨_, World.lookup_keepBreaker _ _ _, hlead.append (hdoes b₁ _)⟩
    known := fun e he j hj => by
      rcases List.mem_append.mp he with he | he
      · exact h.known e he j hj
      · have hpassage := Entry.passage_of_mem_ofDeed he
        rw [hj] at hpassage
        cases hpassage
    outside := fun e he hnone => by
      rcases List.mem_append.mp he with he | he
      · exact h.outside e he hnone
      · cases List.mem_singleton.mp he
        exact hd
    rest := h.rest
    accounted := fun j r hr => by
      have hnone : none ≠ some j := nofun
      rw [Entry.deedsOf_append_of_ne hnone]
      exact h.accounted j r hr }

theorem Sound.arrive (h : Sound route chain b.policy first t) (client : Receiver) (x : Exchange)
    (now : Instant) (gone : Option Instant) :
    Sound route chain b.policy first (t.step route chain (.arrive client x now gone)) where
  breaker := h.breaker
  known e he j hj := by
    rw [Traffic.step, List.length_append]
    exact Nat.lt_add_right 1 (h.known e he j hj)
  outside := h.outside
  rest r hr := by
    rcases List.mem_append.mp hr with hr | hr
    · exact h.rest r hr
    · cases List.mem_singleton.mp hr
      exact fun f hf => hf
  accounted j r hr := by
    rcases Nat.lt_trichotomy j t.passages.length with hlt | heq | hgt
    · rw [Traffic.step, List.getElem?_append_left hlt] at hr
      exact h.accounted j r hr
    · -- the ledger has no entry yet for an exchange that has just come
      rw [Traffic.step, heq, List.getElem?_concat_length, Option.some.injEq] at hr
      cases hr
      rw [Traffic.step, Entry.deedsOf_eq_nil fun e he hj => Nat.ne_of_lt (h.known e he j hj) heq]
      exact .unasked (.before chain)
    · rw [Traffic.step, List.getElem?_eq_none (by rw [List.length_append]; exact hgt)] at hr
      cases hr

theorem Sound.advance (h : Sound route chain b.policy first t) (hb : route.breaker = some b)
    (hdefault : b.policy.forgives = none) (hspares : ∀ f ∈ chain, f.Spares route.id)
    (hq : t.passages[i]? = some q) (hdropped : q.dropped = false) :
    Sound route chain b.policy first (t.advance route chain i q) := by
  have hrest := h.rest q (List.mem_of_getElem? hq)
  have haccounted := h.accounted i q hq
  rw [hdropped] at haccounted
  apply h.put hq
  · intro b₁ hb₁
    exact lookup_advance q.client chain q.exchange hb (fun f hf => hspares f (hrest f hf)) rfl hb₁
  · exact mem_rest_advance _ _ _ _ hrest
  · rw [hdropped]
    exact haccounted.advance hb hdefault chain _ _

theorem Sound.drop (h : Sound route chain b.policy first t) (hb : route.breaker = some b)
    (hq : t.passages[i]? = some q) (hdropped : q.dropped = false) :
    Sound route chain b.policy first (t.drop route i q) := by
  have haccounted := h.accounted i q hq
  rw [hdropped] at haccounted
  apply h.put hq
  · exact fun b₁ hb₁ => lookup_abandon q.stage hb hb₁
  · exact h.rest q (List.mem_of_getElem? hq)
  · exact haccounted.abandon hb t.world

theorem Sound.step (h : Sound route chain b.policy first t) (hb : route.breaker = some b)
    (hdefault : b.policy.forgives = none) (hspares : ∀ f ∈ chain, f.Spares route.id) (m : Move) :
    Sound route chain b.policy first (t.step route chain m) := by
  cases m with
  | arrive client x now gone => exact h.arrive client x now gone
  | advance i =>
    rw [Traffic.step]
    split
    · rename_i q hq
      split
      · exact h
      · rename_i hdropped
        exact h.advance hb hdefault hspares hq (Bool.eq_false_iff.mpr hdropped)
    · exact h
  | drop i =>
    rw [Traffic.step]
    split
    · rename_i q hq
      split
      · exact h
      · rename_i hdropped
        exact h.drop hb hq (Bool.eq_false_iff.mpr hdropped)
    · exact h
  | read => exact h.touch hb (fun _ _ => .read) (.inl rfl)
  | reset => exact h.touch hb (fun _ _ => .reset) (.inr rfl)
  | wait d => exact ⟨h.breaker, h.known, h.outside, h.rest, h.accounted⟩
  | elsewhere f =>
    obtain ⟨b₁, hb₁, hlead⟩ := h.breaker
    refine ⟨⟨b₁, ?_, hlead⟩, h.known, h.outside, h.rest, h.accounted⟩
    simp only [Traffic.step, around, hb₁]
    exact List.lookup_cons_self

theorem Sound.run (h : Sound route chain b.policy first t) (hb : route.breaker = some b)
    (hdefault : b.policy.forgives = none) (hspares : ∀ f ∈ chain, f.Spares route.id)
    (moves : List Move) : Sound route chain b.policy first (t.run route chain moves) := by
  induction moves generalizing t with
  | nil => exact h
  | cons m moves ih => exact ih (h.step hb hdefault hspares m)

/-- **Exchanges and the breaker of their route.** Alone an exchange takes the steps that lead to
where `handle` leaves it. A call that is answered takes it to the hooks after the response with that
response, whatever the status, exactly if its report to the breaker does not overflow; one that
overflows breaks off the exchange, and has begun a generation whose end cannot be told. Take any
exchanges on a route whose breaker forgives no error
and whose filters leave the breaker alone, and let them take their steps, and lose their callers,
in any order. Then the breaker is what the deeds of the ledger have made of it, of which only the
admissions add a call to its total, one each; the deeds that are no exchange's are reads and
resets; and every exchange is accounted for. One that is stopped before it asks has done nothing to
the breaker, and one that is refused no more than to have it read. One that is let through has
reported nothing while its call goes on and one outcome, under the generation that let it through,
from there on, whatever the hooks after the response come to: a success if the client answered
within the scope of the exchange and not with a server error, and otherwise a failure. -/
theorem breaker_accounts_for_exchanges (globals : List Filter) (route : Route) (b : RouteBreaker)
    (hb : route.breaker = some b) (hdefault : b.policy.forgives = none)
    (hspares : ∀ f ∈ globals ++ route.filters, f.Spares route.id) :
    let chain := globals ++ route.filters
    (∀ client w x, ∃ stop w' x',
      Advances client route chain ⟨w, x, .before chain⟩ ⟨w', x', .finished stop⟩ ∧
      handle client globals route w x = (endingOn route stop, w', x')) ∧
    (∀ client w x g c r, c.IsAnswered r →
      let reported := (report route g c.fate (worldAt c.ended w)).1
      let next := (Gateway.advance client route chain ⟨w, x, .waiting g c⟩).1
      ((∃ w', next = ⟨w', x.answeredBy r, .after chain.reverse⟩) ↔ reported = .ok ()) ∧
      (reported = .ok () ∨ ((∃ w', next = ⟨w', x, .finished (some .overflowed)⟩) ∧
        ∃ s t, Breaker.expiryFits b.policy s t = false))) ∧
    ∀ (w : World) (first : Breaker) (moves : List Move),
      let t := run route chain { world := w.keepBreaker route.id first } moves
      (∃ present, t.world.breakers.lookup route.id = some present ∧
        Entry.Lead b.policy first t.ledger present ∧
        present.totalRequests = first.totalRequests + t.ledger.countP (·.deed.isAdmission)) ∧
      (∀ e ∈ t.ledger, (∀ i, e.passage = some i → i < t.passages.length) ∧
        (e.passage = none → e.deed = .read ∨ e.deed = .reset)) ∧
      ∀ i (q : Passage), t.passages[i]? = some q →
        Accounted q.client q.dropped q.stage (Entry.deedsOf i t.ledger) := by
  intro chain
  refine ⟨fun client w x => ?_, fun client w x g c r hanswered => ?_, fun w first moves => ?_⟩
  · obtain ⟨t, stop, w', x', hcourse⟩ := exists_course client route chain w x
    exact ⟨stop, w', x', hcourse.advances, hcourse.handle_eq⟩
  · exact advance_of_isAnswered hb chain w x g hanswered
  · have hsound := (sound_start route chain b.policy first w).run hb hdefault hspares moves
    obtain ⟨present, hpresent, hlead⟩ := hsound.breaker
    exact ⟨⟨present, hpresent, hlead, hlead.totalRequests⟩,
      fun e he => ⟨hsound.known e he, hsound.outside e he⟩, hsound.accounted⟩

/-- A route with a breaker and a filter that fails after the response. -/
def watchedRoute : Route :=
  { failingRoute with breaker := some { policy := { name := "b" }, begun := {} } }

/-- Of two exchanges that overlap one is answered with a server error and then stopped by a filter,
and the other loses its caller during its call. -/
def watchedMoves : List Move :=
  let x := Exchange.begin_ watchedRoute { url := watchedRoute.uri } default
  let broken := Script.receiver { reply := .ok (.response { status := 503 }) }
  [.arrive broken x 0 none, .advance 0, .advance 0, .advance 0, .advance 0,
    .arrive broken x 0 none, .advance 1, .advance 1, .advance 1, .advance 1,
    .advance 0, .drop 1, .advance 0]

/-- What the exchanges of `watchedMoves` come to. -/
def watched : Traffic :=
  run watchedRoute watchedRoute.filters { world := World.keepBreaker default watchedRoute.id {} }
    watchedMoves

/-- Both calls are counted, and both have failed. -/
theorem breaker_accounts_for_exchanges_watched :
    (∃ b', watched.world.breakers.lookup watchedRoute.id = some b' ∧ b'.totalRequests = 2 ∧
      b'.counts.consecutiveFailures = 2) ∧
    watched.passages.map (·.dropped) = [false, true] ∧
    ∀ i (q : Passage), watched.passages[i]? = some q →
      Accounted q.client q.dropped q.stage (Entry.deedsOf i watched.ledger) := by
  have hspares : ∀ f ∈ [] ++ watchedRoute.filters, f.Spares watchedRoute.id := by
    simp [watchedRoute, failingRoute, Filter.inert, failingAfter, Filter.Spares, Filter.finish,
      Filter.failWith]
  obtain ⟨-, -, hall⟩ :=
    breaker_accounts_for_exchanges [] watchedRoute { policy := { name := "b" }, begun := {} } rfl
      rfl hspares
  obtain ⟨⟨b', hb', -, htotal⟩, -, haccounted⟩ := hall default {} watchedMoves
  rw [List.nil_append, ← watched] at hb' htotal haccounted
  have hadmitted : watched.ledger.countP (·.deed.isAdmission) = 2 := by decide +kernel
  have hfailures : (watched.world.breakers.lookup watchedRoute.id).map
      (·.counts.consecutiveFailures) = some 2 := by decide +kernel
  have hdropped : watched.passages.map (·.dropped) = [false, true] := by decide +kernel
  rw [hb', Option.map_some, Option.some.injEq] at hfailures
  rw [hadmitted] at htotal
  exact ⟨⟨b', hb', htotal, hfailures⟩, hdropped, haccounted⟩

/-- An exchange whose call is answered with a server error, which opens the breaker for 10 ^ 19 s. -/
def overflowing : Traffic :=
  let x := Exchange.begin_ overflowingRoute { url := overflowingRoute.uri } default
  let broken := Script.receiver { reply := .ok (.response { status := 503 }) }
  run overflowingRoute overflowingRoute.filters
    { world := World.keepBreaker default overflowingRoute.id {} }
    [.arrive broken x 0 none, .advance 0, .advance 0, .advance 0, .advance 0]

/-- The answer is reported as a failure, and the exchange breaks off without it. -/
theorem answer_meets_overflow :
    overflowing.ledger.map (fun e => match e.deed with
        | .admitted g c => (g, (missing c.ended).isNone)
        | .reported g success => (g, success)
        | _ => (0, false)) = [(0, true), (0, false)] ∧
      overflowing.passages.map (fun q => match q.stage with
        | .finished (some .overflowed) => true
        | _ => false) = [true] := by
  decide +kernel

end Traffic

end Gateway

end Gatehouse
