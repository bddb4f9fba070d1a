import Gatehouse.Config.Load
import Gatehouse.Proofs.Except

/-!
# How long a loaded duration can be

A reader of trees that yields only what has some property (`Yields`) does so as well where it reads
the fields of a structure, the items of a list or what may be left out. From the reader of durations
up this gives a bound on every duration of a loaded configuration that is added to the time
(`limits_le_longest`), whatever the format.
-/

namespace Gatehouse

namespace Duration

/-- What no span that a text stands for goes beyond. -/
def longest : Duration := ofSeconds limit

theorem bounded_eq_some {n m : Nat} (h : bounded n = some m) : m = n ∧ n < limit := by
  unfold bounded at h
  split at h
  · next hlt => exact ⟨(Option.some.inj h).symm, hlt⟩
  · cases h

theorem add?_le_longest {d d' : Duration} {s : Scale} (h : d.add? s = some d') : d' ≤ longest := by
  simp only [add?, Option.bind_eq_bind, Option.bind_eq_some_iff] at h
  obtain ⟨nanos, -, h⟩ := h
  have hnanos : (if nanos > 1000000000 then nanos % 1000000000 else nanos) ≤ 1000000000 := by
    split <;> omega
  generalize (if nanos > 1000000000 then nanos % 1000000000 else nanos) = rest at hnanos h
  -- whatever is carried, the seconds stay below the limit
  have hsum {carried : Nat} (h : ((bounded (d.seconds + carried)).bind fun seconds =>
      pure (seconds * 1000000000 + rest)) = some d') : d' ≤ longest := by
    obtain ⟨seconds, hseconds, hd⟩ := Option.bind_eq_some_iff.mp h
    obtain ⟨rfl, hlt⟩ := bounded_eq_some hseconds
    obtain rfl := Option.some.inj hd
    show @LE.le Nat _ ((d.seconds + carried) * 1000000000 + rest) (limit * 1000000000)
    omega
  split at h
  · obtain ⟨carried, -, h⟩ := Option.bind_eq_some_iff.mp h
    exact hsum h
  · exact hsum h

theorem addUnits?_le_longest {d d' : Duration} {n : Nat} {fraction : Option Fraction} {unit : Unit}
    (h : d.addUnits? n fraction unit = some d') : d' ≤ longest := by
  simp only [addUnits?, Option.bind_eq_bind, Option.bind_eq_some_iff] at h
  obtain ⟨scale, -, whole, hwhole, h⟩ := h
  cases fraction with
  | none => exact Option.some.inj h ▸ add?_le_longest hwhole
  | some f =>
    simp only [Option.bind_eq_some_iff] at h
    obtain ⟨_, -, _, -, _, -, h⟩ := h
    exact add?_le_longest h

theorem groups_le_longest {d d' : Duration} {n fuel : Nat} {cs : List Char}
    (h : groups d n cs fuel = some d') : d' ≤ longest := by
  induction fuel generalizing d n cs with
  | zero => cases h
  | succ fuel ih =>
    simp only [groups, Option.bind_eq_bind, Option.bind_eq_some_iff] at h
    obtain ⟨⟨n, rest⟩, -, ⟨fraction, rest⟩, -, unit, -, sum, hsum, h⟩ := h
    split at h
    · exact Option.some.inj h ▸ addUnits?_le_longest hsum
    · split at h
      · exact ih h
      · split at h
        · simp only [Option.bind_eq_some_iff] at h
          obtain ⟨first, -, h⟩ := h
          split at h
          · exact Option.some.inj h ▸ addUnits?_le_longest hsum
          · exact ih h
        · cases h

theorem parse?_le_longest {text : List Char} {d : Duration} (h : parse? text = some d) :
    d ≤ longest := by
  unfold parse? at h
  split at h
  · exact Option.some.inj h ▸ Nat.zero_le _
  · simp only [Option.bind_eq_bind, Option.bind_eq_some_iff] at h
    obtain ⟨first, -, h⟩ := h
    split at h
    · cases h
    · exact groups_le_longest h

end Duration

namespace Config

/-! ## What readers yield -/

namespace Node

variable {α : Type} {read : Node → Except Fault α} {P : α → Prop}

/-- Whatever a reader makes of a tree has a property. -/
def Yields (read : Node → Except Fault α) (P : α → Prop) : Prop := ∀ x a, read x = .ok a → P a

theorem Yields.get (h : Yields read P) {given : Given} {name : String} {default a : α}
    (hdefault : P default) (hget : given.get name read default = .ok a) : P a := by
  unfold Given.get at hget
  split at hget
  · exact h _ _ hget
  · cases hget
    exact hdefault

theorem Yields.optional (h : Yields read P) : Yields (optional read) fun o => ∀ a ∈ o, P a := by
  intro x o hread
  unfold Node.optional at hread
  split at hread
  · cases hread
    exact nofun
  · obtain ⟨a, ha, rfl⟩ := map_eq_ok.mp hread
    rintro _ ⟨⟩
    exact h _ _ ha

theorem Yields.list (h : Yields read P) : Yields (list read) fun as => ∀ a ∈ as, P a := by
  intro x as hread
  unfold Node.list at hread
  split at hread
  case h_1 items =>
    induction items generalizing as with
    | nil =>
      cases hread
      exact nofun
    | cons item items ih =>
      rw [List.mapM_cons] at hread
      obtain ⟨a, ha, hread⟩ := bind_eq_ok.mp hread
      obtain ⟨rest, hrest, hread⟩ := bind_eq_ok.mp hread
      cases hread
      exact List.forall_mem_cons.mpr ⟨h _ _ ha, ih _ hrest⟩
  case h_2 =>
    cases hread
    exact nofun
  case h_3 => cases hread

theorem yields_duration : Yields duration (· ≤ Duration.longest) := by
  intro x d hread
  unfold duration at hread
  split at hread
  · split at hread
    · next hparse =>
      cases hread
      exact Duration.parse?_le_longest hparse
    · cases hread
  · split at hread
    · next n _ hn =>
      cases hread
      have hword : Int.pow 2 64 = 18446744073709551616 := by decide
      have hlongest : @Eq Nat Duration.longest 18446744073709551616000000000 := by decide
      show @LE.le Nat _ n.toNat Duration.longest
      omega
    · split at hread <;> cases hread
  · cases hread

end Node

/-! ## Durations that are added to the time -/

/-- How long a breaker keeps its counts while it is closed, and how long it stays open. -/
def BreakerSettings.limits (b : BreakerSettings) : List Duration := [b.interval, b.timeout]

/-- How long an exchange on a route may take, and what its breaker is limited by. -/
def RouteEntry.limits (globalTimeout : Option Duration) (r : RouteEntry) : List Duration :=
  (r.timeout.or globalTimeout).toList ++ r.breaker.toList.flatMap BreakerSettings.limits

/-- The durations of a configuration that are added to the time: how long the body of a request may
take, and the limits of every route. -/
def limits (c : Config) : List Duration :=
  c.server.readTimeout :: c.gateway.routes.flatMap (RouteEntry.limits c.gateway.globalTimeout)

variable {P : Duration → Prop}

theorem RouteEntry.forall_mem_limits {globalTimeout : Option Duration} {r : RouteEntry} :
    (∀ d ∈ r.limits globalTimeout, P d) ↔
      (∀ d ∈ r.timeout.or globalTimeout, P d) ∧ ∀ b ∈ r.breaker, P b.interval ∧ P b.timeout := by
  rw [RouteEntry.limits, List.forall_mem_append, List.forall_mem_flatMap]
  simp [BreakerSettings.limits]

theorem forall_mem_limits {c : Config} : (∀ d ∈ c.limits, P d) ↔
    P c.server.readTimeout ∧
      ∀ r ∈ c.gateway.routes, ∀ d ∈ r.limits c.gateway.globalTimeout, P d := by
  rw [limits, List.forall_mem_cons, List.forall_mem_flatMap]

/-! ## What is read of settings -/

theorem yields_server : Node.Yields Server.ofNode fun s => s.readTimeout ≤ Duration.longest := by
  intro x s h
  unfold Server.ofNode at h
  obtain ⟨given, -, h⟩ := bind_eq_ok.mp h
  obtain ⟨_, -, h⟩ := bind_eq_ok.mp h
  obtain ⟨_, -, h⟩ := bind_eq_ok.mp h
  obtain ⟨_, -, h⟩ := bind_eq_ok.mp h
  obtain ⟨readTimeout, hread, h⟩ := bind_eq_ok.mp h
  obtain ⟨_, -, h⟩ := bind_eq_ok.mp h
  obtain ⟨_, -, h⟩ := bind_eq_ok.mp h
  obtain ⟨_, -, h⟩ := bind_eq_ok.mp h
  obtain ⟨_, -, h⟩ := bind_eq_ok.mp h
  cases h
  exact Node.yields_duration.get (by decide) hread

theorem yields_breaker : Node.Yields BreakerSettings.ofNode fun b =>
    b.interval ≤ Duration.longest ∧ b.timeout ≤ Duration.longest := by
  intro x b h
  unfold BreakerSettings.ofNode at h
  obtain ⟨given, -, h⟩ := bind_eq_ok.mp h
  obtain ⟨_, -, h⟩ := bind_eq_ok.mp h
  obtain ⟨interval, hinterval, h⟩ := bind_eq_ok.mp h
  obtain ⟨timeout, htimeout, h⟩ := bind_eq_ok.mp h
  obtain ⟨_, -, h⟩ := bind_eq_ok.mp h
  cases h
  exact ⟨Node.yields_duration.get (by decide) hinterval,
    Node.yields_duration.get (by decide) htimeout⟩

theorem yields_route : Node.Yields RouteEntry.ofNode fun r =>
    (∀ d ∈ r.timeout, d ≤ Duration.longest) ∧
      ∀ b ∈ r.breaker, b.interval ≤ Duration.longest ∧ b.timeout ≤ Duration.longest := by
  intro x r h
  unfold RouteEntry.ofNode at h
  obtain ⟨given, -, h⟩ := bind_eq_ok.mp h
  obtain ⟨_, -, h⟩ := bind_eq_ok.mp h
  obtain ⟨_, -, h⟩ := bind_eq_ok.mp h
  obtain ⟨_, -, h⟩ := bind_eq_ok.mp h
  obtain ⟨_, -, h⟩ := bind_eq_ok.mp h
  obtain ⟨timeout, htimeout, h⟩ := bind_eq_ok.mp h
  obtain ⟨breaker, hbreaker, h⟩ := bind_eq_ok.mp h
  obtain ⟨_, -, h⟩ := bind_eq_ok.mp h
  cases h
  exact ⟨Node.yields_duration.optional.get (by simp) htimeout,
    yields_breaker.optional.get (by simp) hbreaker⟩

theorem yields_gateway : Node.Yields Gateway.ofNode fun g =>
    ∀ r ∈ g.routes, ∀ d ∈ r.limits g.globalTimeout, d ≤ Duration.longest := by
  intro x g h
  unfold Gateway.ofNode at h
  obtain ⟨given, -, h⟩ := bind_eq_ok.mp h
  obtain ⟨routes, hroutes, h⟩ := bind_eq_ok.mp h
  obtain ⟨_, -, h⟩ := bind_eq_ok.mp h
  obtain ⟨globalTimeout, hglobal, h⟩ := bind_eq_ok.mp h
  obtain ⟨_, -, h⟩ := bind_eq_ok.mp h
  cases h
  intro r hr
  obtain ⟨htimeout, hbreaker⟩ := yields_route.list.get (by simp) hroutes r hr
  refine RouteEntry.forall_mem_limits.mpr ⟨?_, hbreaker⟩
  intro d hd
  rcases Option.or_eq_some_iff.mp hd with hown | ⟨-, hshared⟩
  · exact htimeout d hown
  · exact Node.yields_duration.optional.get (by simp) hglobal d hshared

theorem yields_config : Node.Yields ofNode fun c => ∀ d ∈ c.limits, d ≤ Duration.longest := by
  intro x c h
  unfold ofNode at h
  obtain ⟨given, -, h⟩ := bind_eq_ok.mp h
  obtain ⟨server, hserver, h⟩ := bind_eq_ok.mp h
  obtain ⟨gateway, hgateway, h⟩ := bind_eq_ok.mp h
  obtain ⟨_, -, h⟩ := bind_eq_ok.mp h
  cases h
  exact forall_mem_limits.mpr ⟨yields_server.get (by decide) hserver,
    yields_gateway.get (by simp) hgateway⟩

/-- What is loaded, in whatever format, adds no more to the time than a text can stand for. -/
theorem limits_le_longest {env : Environment} {format : Format} {text : String} {c : Config}
    (h : load env format text = .ok c) : ∀ d ∈ c.limits, d ≤ Duration.longest := by
  obtain ⟨expanded, -, h⟩ := bind_eq_ok.mp h
  unfold parse at h
  split at h
  · cases h
  · split at h
    · next hread =>
      cases h
      exact yields_config _ _ hread
    · cases h

end Config

end Gatehouse
