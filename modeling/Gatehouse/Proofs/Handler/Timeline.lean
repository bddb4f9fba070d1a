import Gatehouse.Proofs.Breaker.Generations
import Gatehouse.Proofs.Config.Limits
import Gatehouse.Proofs.Handler.Steadiness

/-!
# Limits on the timeline

A limit is added to the time at which it begins, and where the sum is beyond the end of the timeline,
assembling, answering or a breaker breaks down. `Timely` says of an instant that no sum that begins
then is. The durations of a configuration decide it: every instant of the first half of the timeline is
timely exactly if no duration is longer than that half. Both ways are needed, as what a text may stand
for is longer than the whole timeline.
-/

namespace Gatehouse

namespace Instant

/-- The middle of the timeline, in nanoseconds. -/
def horizon : Nat := Nat.pow 2 62 * 1000000000

theorem fits_iff {t : Nat} : fits t = true ↔ t < horizon + horizon := by
  have hlimit : limit = horizon + horizon := by decide
  rw [fits, decide_eq_true_iff, hlimit]

theorem fits_of_lt {t : Nat} (h : t < horizon) : fits t = true := by
  rw [fits_iff]
  omega

/-- What can be added to every instant before the middle is no longer than half of the timeline. -/
theorem fits_add_iff {d : Nat} : (∀ now < horizon, fits (now + d) = true) ↔ d ≤ horizon := by
  have hpos : 0 < horizon := by decide
  simp only [fits_iff]
  constructor
  · intro h
    have hlast := h (horizon - 1) (by omega)
    omega
  · intro hd now hnow
    omega

end Instant

open Instant (horizon)

/-! ## Lengths of no time -/

/-- A limit of zero is none, and its end would be on the timeline. -/
theorem fits_filter_iff {now : Nat} (h : now < horizon) (limit : Option Duration) :
    (∀ d ∈ limit.filter (· ≠ 0), Instant.fits (now + d) = true) ↔
      ∀ d ∈ limit, Instant.fits (now + d) = true := by
  constructor
  · intro hall d hd
    by_cases hzero : d = 0
    · rw [hzero]
      exact Instant.fits_of_lt h
    · exact hall d (Option.filter_eq_some_iff.mpr ⟨hd, by simpa using hzero⟩)
  · intro hall d hd
    exact hall d (Option.filter_eq_some_iff.mp hd).1

section Policies

variable {now : Nat} (h : now < horizon) (id : String) (b : Config.BreakerSettings)

include h

theorem expiryFits_closed_iff : Breaker.expiryFits (Assembly.policyOf id b) .closed now = true ↔
    Instant.fits (now + b.interval) = true := by
  show (if b.interval = 0 then none else some (now + b.interval)).all Instant.fits = true ↔ _
  split
  · next hzero => simpa [hzero] using Instant.fits_of_lt h
  · rfl

theorem expiryFits_opened_iff : Breaker.expiryFits (Assembly.policyOf id b) .opened now = true ↔
    Instant.fits (now + b.timeout) = true := by
  show Instant.fits (now + if b.timeout = 0 then Duration.ofSeconds 60 else b.timeout) = true ↔ _
  split
  · next hzero =>
    -- the minute that stands for no timeout is far shorter than half of the timeline
    have hminute : Duration.ofSeconds 60 ≤ horizon := by decide
    rw [hzero]
    exact iff_of_true (Instant.fits_add_iff.mpr hminute now h) (Instant.fits_of_lt h)
  · rfl

/-- The ends of the generations of a breaker are on the timeline where what is added is. -/
theorem expiryFits_policyOf_iff :
    (∀ state, Breaker.expiryFits (Assembly.policyOf id b) state now = true) ↔
      Instant.fits (now + b.interval) = true ∧ Instant.fits (now + b.timeout) = true := by
  rw [← expiryFits_closed_iff h id b, ← expiryFits_opened_iff h id b]
  constructor
  · intro hall
    exact ⟨hall .closed, hall .opened⟩
  · rintro ⟨hclosed, hopened⟩ state
    cases state with
    | closed => exact hclosed
    | opened => exact hopened
    | halfOpen => rfl

end Policies

/-! ## Timely instants -/

/-- What begins at an instant has its end on the timeline: the body of a request, an exchange on any
route, and a generation of any breaker. -/
structure Handler.Timely (h : Handler) (now : Instant) : Prop where
  read : ∀ d ∈ h.readTimeout, Instant.fits (now + d) = true
  routes : ∀ route ∈ h.table.routes, ∀ d ∈ route.timeout, Instant.fits (now + d) = true
  breakers : ∀ route ∈ h.table.routes, ∀ b ∈ route.breaker, ∀ state,
    Breaker.expiryFits b.policy state now = true

namespace Assembly

variable {registries : Registries} {start : Duration} {globalTimeout : Option Duration}
  {r : Config.RouteEntry} {route : Route}

/-- What is made of an entry is timely where the durations of the entry can be added. -/
theorem Made.timely_iff (hmade : Made registries start globalTimeout r route) {now : Nat}
    (h : now < horizon) :
    ((∀ d ∈ route.timeout, Instant.fits (now + d) = true) ∧
      ∀ b ∈ route.breaker, ∀ state, Breaker.expiryFits b.policy state now = true) ↔
        ∀ d ∈ r.limits globalTimeout, Instant.fits (now + d) = true := by
  rw [Config.RouteEntry.forall_mem_limits, hmade.timeout, fits_filter_iff h, hmade.breaker]
  apply and_congr_right
  intro _
  cases r.breaker with
  | none => simp
  | some b => simpa using expiryFits_policyOf_iff h r.id b

/-- A breaker begins where the durations of its entry can be added. -/
theorem breakerBegins_of_fits {now : Nat} (h : now < horizon)
    (hfits : ∀ d ∈ r.limits globalTimeout, Instant.fits (now + d) = true) :
    BreakerBegins now r := by
  intro settings hsettings
  obtain ⟨-, hbreaker⟩ := Config.RouteEntry.forall_mem_limits.mp hfits
  exact (expiryFits_policyOf_iff h r.id settings).mpr (hbreaker settings hsettings) .closed

/-- What holds of every route holds, as it is for what they are made of, of every entry. -/
theorem forall_made_iff {entries : List Config.RouteEntry} {routes : List Route}
    {P : Config.RouteEntry → Prop} {Q : Route → Prop}
    (hmade : List.Forall₂ (Made registries start globalTimeout) entries routes)
    (hiff : ∀ r route, Made registries start globalTimeout r route → (Q route ↔ P r)) :
    (∀ route ∈ routes, Q route) ↔ ∀ r ∈ entries, P r := by
  induction hmade with
  | nil => simp
  | cons hfirst _ ih => rw [List.forall_mem_cons, List.forall_mem_cons, hiff _ _ hfirst, ih]

end Assembly

namespace Application

variable {registries : Registries} {config : Config}

/-- Where every limit can be added to an instant, assembling at that instant does not panic. -/
theorem ofConfig_ne_panicked (hvalid : config.validate = .ok ()) {start : Nat} (h : start < horizon)
    (hfits : ∀ d ∈ config.limits, Instant.fits (start + d) = true) (panic : Panic) :
    ofConfig registries start config ≠ .error (.panicked panic) := by
  intro hpanic
  rw [ofConfig_eq_map hvalid] at hpanic
  have hsound := (Config.routes_of_validate hvalid).1
  obtain ⟨r, hr, hends⟩ := Assembly.exists_entry_of_panicked hsound (map_eq_error.mp hpanic)
  exact hends (Assembly.breakerBegins_of_fits h ((Config.forall_mem_limits.mp hfits).2 r hr))

end Application

namespace Handler

/-- An instant before the middle is timely where every limit can be added to it. -/
theorem timely_ofApplication_iff {registries : Registries} {start : Duration} {config : Config}
    {app : Application} (happ : Application.ofConfig registries start config = .ok app) {now : Nat}
    (hnow : now < horizon) :
    (ofApplication app).Timely now ↔ ∀ d ∈ config.limits, Instant.fits (now + d) = true := by
  obtain ⟨rfl, hmade, -⟩ := Application.made_of_ofConfig happ
  have hread : (∀ d ∈ (ofApplication app).readTimeout, Instant.fits (now + d) = true) ↔
      Instant.fits (now + app.config.server.readTimeout) = true := by
    have hfilter := fits_filter_iff hnow (some app.config.server.readTimeout)
    rw [← Assembly.bind_nonZero] at hfilter
    simpa [ofApplication] using hfilter
  have hroutes := Assembly.forall_made_iff hmade fun r route hmade => hmade.timely_iff hnow
  rw [Config.forall_mem_limits, ← hread, ← hroutes]
  constructor
  · rintro ⟨hread, htimeouts, hbreakers⟩
    exact ⟨hread, fun route hroute => ⟨htimeouts route hroute, hbreakers route hroute⟩⟩
  · rintro ⟨hread, hroutes⟩
    exact ⟨hread, fun route hroute => (hroutes route hroute).1,
      fun route hroute => (hroutes route hroute).2⟩

end Handler

/-! ## Answering -/

namespace Handler

variable {h : Handler} {client : Receiver} {w : World}

/-- Between timely instants a request only breaks down at what is given to the handler. -/
theorem Timely.handle_ne_panicked (ht : h.Timely w.now) (hsteady : h.Steady)
    (hclient : client.Steady) (newId : Bytes) (head : Http.RequestHead) (source : Source)
    (remote : Option Net.Endpoint)
    (hend : h.Timely (h.handle client newId head source remote w).2.clock.now) :
    (h.handle client newId head source remote w).1 ≠ .panicked := by
  have hread : limitFits w h.readTimeout = true := limitFits_iff.mpr ht.read
  have hroutes : ∀ route ∈ h.table.routes, limitFits w route.timeout = true :=
    fun route hroute => limitFits_iff.mpr (ht.routes route hroute)
  exact hsteady.handle_ne_panicked hclient hread hroutes hend.breakers

end Handler

/-! ## Generations -/

namespace Breaker.Usage

variable {p : BreakerPolicy} {u : Usage} {e : Beginning}

/-- What an action comes to, beside what it leaves. -/
def outcome (p : BreakerPolicy) (u : Usage) : Action → Except Panic Unit
  | .enter => (Breaker.enter p u.breaker u.now).1.map fun _ => ()
  | .settle call success => (Breaker.settle p u.breaker call.generation success u.now).1
  | .read => (refresh p u.breaker u.now).1
  | .reset => (Breaker.reset p u.breaker u.now).1
  | .wait _ => .ok ()

/-- No action panics at an instant at which the end of every generation can be told. -/
theorem outcome_eq_ok (hfits : ∀ state, expiryFits p state u.now = true) (a : Action) :
    u.outcome p a = .ok () := by
  have hnone {r : Except Panic Unit} {P : Prop}
      (h : r = .ok () ∨ (P ∧ ∃ state, expiryFits p state u.now = false)) : r = .ok () := by
    rcases h with h | ⟨-, state, hunfit⟩
    · exact h
    · exact absurd (hfits state) (Bool.eq_false_iff.mp hunfit)
  cases a with
  | enter =>
    rcases enter_result_cases p u.breaker u.now with ⟨answer, h⟩ | ⟨-, state, hunfit⟩
    · simp only [outcome, h]
      rfl
    · exact absurd (hfits state) (Bool.eq_false_iff.mp hunfit)
  | settle call success => exact hnone (settle_result_cases p u.breaker call.generation success u.now)
  | read => exact hnone (refresh_result_cases p u.breaker u.now)
  | reset => exact hnone (begun_reset p u.breaker u.now).result_cases
  | wait d => rfl

theorem instant_of_mem_due {b : Breaker} {now : Duration} (h : e ∈ dueBeginning p b now) :
    e.instant = now := by
  unfold dueBeginning at h
  split at h
  · rw [List.mem_singleton.mp h]
  · cases h

theorem instant_of_mem_settle {b : Breaker} {g : Nat} {success : Bool} {now : Duration}
    (h : e ∈ settleBeginnings p b g success now) : e.instant = now := by
  rcases List.mem_append.mp h with hdue | houtcome
  · exact instant_of_mem_due hdue
  · split at houtcome
    · cases houtcome
    · rw [List.mem_singleton.mp houtcome]

/-- A generation that an action begins begins at once. -/
theorem instant_of_mem_beginnings {a : Action} (h : e ∈ u.beginnings p a) : e.instant = u.now := by
  cases a with
  | enter | read => exact instant_of_mem_due h
  | settle call success =>
    simp only [beginnings] at h
    split at h
    · exact instant_of_mem_settle h
    · cases h
  | reset => rw [List.mem_singleton.mp h]
  | wait d => cases h

theorem instant_le_of_mem_history {actions : List Action} (h : e ∈ u.history p actions) :
    e.instant ≤ (u.run p actions).now := by
  induction actions generalizing u with
  | nil => cases h
  | cons a actions ih =>
    rcases List.mem_append.mp h with hfirst | hrest
    · rw [instant_of_mem_beginnings hfirst]
      exact now_le_run u (a :: actions)
    · exact ih hrest

/-- A breaker whose ends are on the timeline up to some instant gives every generation that begins by
then the end that belongs to it. -/
theorem expiry_of_mem_history {limit start : Nat} {actions : List Action}
    (hfits : ∀ now < limit, ∀ state, expiryFits p state now = true)
    (hnow : ((fresh p start).run p actions).now < limit)
    (h : e ∈ (fresh p start).history p actions) :
    e.breaker.expiry = expiryOf p e.breaker.state e.instant ∧
      e.breaker.expiry.all Instant.fits = true := by
  have hstart : start < limit := Nat.lt_of_le_of_lt (now_le_run (fresh p start) actions) hnow
  have hinstant : e.instant < limit := Nat.lt_of_le_of_lt (instant_le_of_mem_history h) hnow
  have hown : expiryFits p e.breaker.state e.instant = true := hfits e.instant hinstant _
  have hbegun : EndFits (fresh p start).breaker := endFits_run (hfits start hstart .closed) []
  have hexpiry : e.breaker.expiry = expiryOf p e.breaker.state e.instant :=
    ((chronicle_run p (fresh p start) actions).expiry_eq_iff hbegun e h).mpr hown
  exact ⟨hexpiry, hexpiry ▸ hown⟩

end Breaker.Usage

namespace Handler

/-- **When time arithmetic holds.** No duration of a loaded configuration that is added to the time
goes beyond what a text can stand for, which is more than the timeline. A valid configuration none of
whose builders fails is assembled at every instant before the middle of the timeline, to a handler
whose sums at that instant are on the timeline, exactly if no duration is longer than half of the
timeline. In that case nothing breaks down on time: not the assembly; not the answer to a request,
unless a part that is given to the handler breaks down; and no action on a breaker, each of whose
generations has the end that belongs to it, which is on the timeline, whatever is done to it. -/
theorem timely_iff_limits_le (registries : Registries) (env : Config.Environment)
    (format : Config.Format) (text : String) {config : Config}
    (hload : Config.load env format text = .ok config) (hvalid : config.validate = .ok ()) :
    (∀ d ∈ config.limits, d ≤ Duration.longest) ∧
    ((∀ e, ¬ Assembly.BuilderFails registries config.gateway e) →
      ((∀ now < horizon, ∃ app, Application.ofConfig registries now config = .ok app ∧
        (ofApplication app).Timely now) ↔ ∀ d ∈ config.limits, d ≤ horizon)) ∧
    ((∀ d ∈ config.limits, d ≤ horizon) →
      (∀ start < horizon, ∀ panic,
        Application.ofConfig registries start config ≠ .error (.panicked panic)) ∧
      ∀ start app, Application.ofConfig registries start config = .ok app →
        let h := ofApplication app
        (∀ now < horizon, h.Timely now) ∧
        (∀ (mounts : Mounts) (client : Receiver), Steady { h with mounts } → client.Steady →
          ∀ (newId : Bytes) (head : Http.RequestHead) (source : Source)
            (remote : Option Net.Endpoint) (w : World), w.now < horizon →
            let handled := { h with mounts }.handle client newId head source remote w
            handled.2.clock.now < horizon → handled.1 ≠ .panicked) ∧
        ∀ route ∈ h.table.routes, ∀ b ∈ route.breaker,
          (∀ (u : Breaker.Usage) (a : Breaker.Action), u.now < horizon →
            u.outcome b.policy a = .ok ()) ∧
          ∀ (begun : Nat) (actions : List Breaker.Action),
            ((Breaker.Usage.fresh b.policy begun).run b.policy actions).now < horizon →
            ∀ e ∈ (Breaker.Usage.fresh b.policy begun).history b.policy actions,
              e.breaker.expiry = Breaker.expiryOf b.policy e.breaker.state e.instant ∧
                e.breaker.expiry.all Instant.fits = true) := by
  have hfits (hlimits : ∀ d ∈ config.limits, d ≤ horizon) (now : Nat) (hnow : now < horizon) :
      ∀ d ∈ config.limits, Instant.fits (now + d) = true :=
    fun d hd => Instant.fits_add_iff.mpr (hlimits d hd) now hnow
  refine ⟨Config.limits_le_longest hload, fun hbuilders => ⟨fun hall d hd => ?_, ?_⟩, ?_⟩
  · apply Instant.fits_add_iff.mp
    intro now hnow
    obtain ⟨app, happ, htimely⟩ := hall now hnow
    exact (timely_ofApplication_iff happ hnow).mp htimely d hd
  · intro hlimits now hnow
    obtain ⟨app, happ⟩ := Application.exists_ofConfig hvalid hbuilders
      (Application.ofConfig_ne_panicked hvalid hnow (hfits hlimits now hnow))
    exact ⟨app, happ, (timely_ofApplication_iff happ hnow).mpr (hfits hlimits now hnow)⟩
  · intro hlimits
    refine ⟨fun start hstart =>
      Application.ofConfig_ne_panicked hvalid hstart (hfits hlimits start hstart),
      fun start app happ => ?_⟩
    intro h
    have hall : ∀ now < horizon, h.Timely now :=
      fun now hnow => (timely_ofApplication_iff happ hnow).mpr (hfits hlimits now hnow)
    refine ⟨hall, ?_, fun route hroute b hb => ⟨fun u a hnow => ?_, ?_⟩⟩
    · intro mounts client hsteady hclient newId head source remote w hnow handled hend
      -- what is mounted has no part in what is timely
      have hmounted {now : Nat} (hnow : now < horizon) : Timely { h with mounts } now := by
        obtain ⟨hread, hroutes, hbreakers⟩ := hall now hnow
        exact ⟨hread, hroutes, hbreakers⟩
      exact (hmounted hnow).handle_ne_panicked hsteady hclient newId head source remote
        (hmounted hend)
    · exact Breaker.Usage.outcome_eq_ok ((hall u.now hnow).breakers route hroute b hb) a
    · intro begun actions hnow e he
      exact Breaker.Usage.expiry_of_mem_history
        (fun now hbefore => (hall now hbefore).breakers route hroute b hb) hnow he

/-! ## A configuration with one timeout -/

/-- The text of a configuration with one route, which has a timeout and a breaker. -/
def oneTimeout (timeout : String) : String :=
  "[[gateway.routes]]\nid = 'order'\nuri = 'http://backend/'\ntimeout = '" ++ timeout ++
    "'\ncircuit-breaker.interval = '1m'\n"

/-- What is known of a configuration that is loaded, valid and names nothing. -/
theorem exists_loaded (text : String) (limits : List Duration)
    (h : (Config.load (fun _ => none) .toml text).toOption.map (fun c =>
      (c.limits, c.validate.isOk, c.gateway.globalFilters.isEmpty,
        c.gateway.routes.all fun r => r.predicates.isEmpty && r.filters.isEmpty)) =
          some (limits, true, true, true)) :
    ∃ config, Config.load (fun _ => none) .toml text = .ok config ∧ config.validate = .ok () ∧
      Assembly.NamesNothing config ∧ config.limits = limits := by
  match hload : Config.load (fun _ => none) .toml text with
  | .error e =>
    rw [hload] at h
    cases h
  | .ok config =>
    rw [hload] at h
    simp only [Except.toOption, Option.map_some, Option.some.injEq, Prod.mk.injEq] at h
    obtain ⟨hlimits, hvalid, hglobals, hroutes⟩ := h
    refine ⟨config, rfl, ?_, ⟨?_, List.isEmpty_iff.mp hglobals⟩, hlimits⟩
    · match hvalidate : config.validate with
      | .ok () => rfl
      | .error e =>
        rw [hvalidate] at hvalid
        cases hvalid
    · intro r hr
      simpa using List.all_eq_true.mp hroutes r hr

/-- An application with limits of a minute at most starts and answers before the middle of the
timeline. -/
theorem timely_iff_limits_le_minute :
    let registries := Registries.builtIn .estimated
    ∃ config, Config.load (fun _ => none) .toml (oneTimeout "30s") = .ok config ∧
      config.validate = .ok () ∧ config.limits = [10, 30, 60, 60].map Duration.ofSeconds ∧
      ∀ start < horizon, ∃ app, Application.ofConfig registries start config = .ok app ∧
        ∀ w : World, w.now < horizon →
          let handled :=
            (ofApplication app).handle promptClient [0x6E] sampleHead { chunks := [] } none w
          handled.2.clock.now < horizon → handled.1 ≠ .panicked := by
  intro registries
  obtain ⟨config, hload, hvalid, hnames, hlimits⟩ :=
    exists_loaded (oneTimeout "30s") ([10, 30, 60, 60].map Duration.ofSeconds) (by decide +kernel)
  have hle : ∀ d ∈ config.limits, d ≤ horizon := by
    rw [hlimits]
    decide
  obtain ⟨-, hstarts, hanswers⟩ := timely_iff_limits_le registries _ _ _ hload hvalid
  refine ⟨config, hload, hvalid, hlimits, fun start hstart => ?_⟩
  obtain ⟨app, happ, -⟩ := (hstarts (hnames.not_builderFails registries)).mpr hle start hstart
  obtain ⟨-, hanswer, -⟩ := (hanswers hle).2 start app happ
  have hsteady : Steady (ofApplication app) := steady_ofApplication happ (List.forall_mem_nil _)
  exact ⟨app, happ, hanswer [] promptClient hsteady steady_promptClient _ _ _ _⟩

/-- A timeout that is loaded and valid may be longer than the timeline: a request to its route breaks
down at the first instant already. -/
theorem overlong_timeout_panics :
    let registries := Registries.builtIn .estimated
    ∃ config app,
      Config.load (fun _ => none) .toml (oneTimeout "10000000000000000000s") = .ok config ∧
      config.validate = .ok () ∧ Application.ofConfig registries 0 config = .ok app ∧
      Steady (ofApplication app) ∧ promptClient.Steady ∧ (default : World).now < horizon ∧
      let handled :=
        (ofApplication app).handle promptClient [0x6E] sampleHead { chunks := [] } none default
      handled.2.clock.now < horizon ∧ handled.1 = .panicked := by
  intro registries
  obtain ⟨config, hload, hvalid, hnames, -⟩ :=
    exists_loaded (oneTimeout "10000000000000000000s")
      ([10, 10000000000000000000, 60, 60].map Duration.ofSeconds) (by decide +kernel)
  have hbreaks : (Config.load (fun _ => none) .toml (oneTimeout "10000000000000000000s") >>=
      fun c => (Application.ofConfig registries 0 c).mapError fun _ => default).toOption.map
        (fun app =>
          let handled :=
            (ofApplication app).handle promptClient [0x6E] sampleHead { chunks := [] } none default
          (decide (handled.2.clock.now < horizon), match handled.1 with
            | .answered _ | .dropped => false
            | .panicked => true)) = some (true, true) := by decide +kernel
  obtain ⟨_, app, hsame, happ, hended⟩ := bind_toOption_map hbreaks
  cases hload.symm.trans hsame
  have happ : Application.ofConfig registries 0 config = .ok app := mapError_eq_ok.mp happ
  obtain ⟨hclock, hpanicked⟩ := Prod.mk.inj hended
  have hsteady : Steady (ofApplication app) := steady_ofApplication happ (List.forall_mem_nil _)
  refine ⟨config, app, hload, hvalid, happ, hsteady, steady_promptClient, by decide,
    of_decide_eq_true hclock, ?_⟩
  split at hpanicked
  · cases hpanicked
  · cases hpanicked
  · next hlast => exact hlast

end Handler

end Gatehouse
