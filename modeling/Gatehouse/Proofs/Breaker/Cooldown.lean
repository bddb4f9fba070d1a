import Gatehouse.Proofs.Breaker.Usage

/-!
# The time that a breaker stays open

A breaker that opens refuses every call until its timeout is over, whatever else is done to it short
of a reset, and nothing changes it meanwhile. The first call after that is admitted, as a probe,
whether or not somebody has read the state before it. No call is ever admitted by an open breaker.

All this is so where the end of the timeout can be told. Where it cannot, the breaker that opens keeps
the end of the interval before, and lets a probe through when that is over.
-/

namespace Gatehouse.Breaker.Usage

variable {p : BreakerPolicy} {u v : Usage}

/-! ## Opening -/

/-- What opens a breaker is an outcome, which begins an open generation. -/
theorem expiry_of_opens {a : Action} (hfrom : u.breaker.state ≠ .opened)
    (hinto : (u.step p a).breaker.state = .opened)
    (hfits : expiryFits p .opened (u.step p a).now = true) :
    (u.step p a).breaker.expiry = some ((u.step p a).now + p.openTimeout) := by
  -- reading opens nothing
  have href : (refresh p u.breaker u.now).2.state ≠ .opened := by
    rcases refresh_cases p u.breaker u.now with h | ⟨-, -, h⟩ | ⟨hs, -, -⟩
    · rw [h]; exact hfrom
    · simp [h.state]
    · exact absurd hs hfrom
  have heffect := effect_step p u a
  generalize (u.step p a).breaker = b' at heffect hinto ⊢
  cases heffect with
  | leaves => exact absurd hinto hfrom
  | reads => exact absurd hinto href
  | counts _ _ _ hopen => exact absurd hinto hopen
  | turns _ hb =>
    rw [hb.state] at hinto
    subst hinto
    rw [now_step] at hfits ⊢
    exact hb.expiry.trans (if_pos hfits)
  | resets hb => exact absurd (hb.state.symm.trans hinto) (by simp)

/-! ## Before the end -/

/-- An open breaker refuses every call until its end, and stays as it is. -/
theorem enter_of_not_isDue {b : Breaker} {now : Duration} (hs : b.state = .opened)
    (hdue : ¬ IsDue b now) :
    Breaker.enter p b now = (.ok (.error (.circuitOpen p.name)), b) := by
  have href : refresh p b now = (.ok (), b) := refresh_of_not_isDue hdue
  have hs' : (refresh p b now).2.state = .opened := by rw [href]; exact hs
  rw [enter_of_opened (congrArg Prod.fst href) hs', href]

/-- Until its end nothing but a reset changes an open breaker. -/
theorem breaker_step_of_opened {a : Action} (hs : u.breaker.state = .opened)
    (hdue : ¬ IsDue u.breaker u.now) (ha : a ≠ .reset) : (u.step p a).breaker = u.breaker := by
  have href : (refresh p u.breaker u.now).2 = u.breaker :=
    congrArg Prod.snd (refresh_of_not_isDue hdue)
  have hopened : (refresh p u.breaker u.now).2.state = .opened := href.symm ▸ hs
  have heffect := effect_step p u a
  generalize (u.step p a).breaker = b' at heffect ⊢
  cases heffect with
  | leaves => rfl
  | reads => exact href
  | counts _ _ _ hopen => exact absurd hopened hopen
  | turns hopen _ => exact absurd hopened hopen
  | resets => exact absurd rfl ha

/-- Until its end an open breaker stays as it is through any actions but resets. -/
theorem breaker_run_of_opened {actions : List Action} (hs : u.breaker.state = .opened)
    (hreset : ∀ a ∈ actions, a ≠ .reset) (hdue : ¬ IsDue u.breaker (u.run p actions).now) :
    (u.run p actions).breaker = u.breaker := by
  induction actions generalizing u with
  | nil => rfl
  | cons a actions ih =>
    have hstep : (u.step p a).breaker = u.breaker :=
      breaker_step_of_opened hs (fun h => hdue (h.mono (now_le_run u (a :: actions))))
        (hreset a List.mem_cons_self)
    have hrest : ((u.step p a).run p actions).breaker = (u.step p a).breaker :=
      ih (hstep ▸ hs) (fun a ha => hreset a (List.mem_cons_of_mem _ ha)) (hstep ▸ hdue)
    exact hrest.trans hstep

/-- Until its end an open breaker refuses every call, whatever else is done to it but resets. -/
theorem refuses_of_not_isDue {actions : List Action} (hs : u.breaker.state = .opened)
    (hreset : ∀ a ∈ actions, a ≠ .reset) (hdue : ¬ IsDue u.breaker (u.run p actions).now) :
    (u.run p actions).breaker = u.breaker ∧
      Breaker.enter p (u.run p actions).breaker (u.run p actions).now =
        (.ok (.error (.circuitOpen p.name)), (u.run p actions).breaker) := by
  have hsame : (u.run p actions).breaker = u.breaker := breaker_run_of_opened hs hreset hdue
  rw [hsame]
  exact ⟨rfl, enter_of_not_isDue hs hdue⟩

/-- An open breaker that has come to its end lets the next call through. -/
theorem enter_ok_of_isDue {b : Breaker} {now : Duration} (hs : b.state = .opened)
    (hdue : IsDue b now) :
    (∃ g, (Breaker.enter p b now).1 = .ok (.ok g)) ∧
      (Breaker.enter p b now).2.state = .halfOpen := by
  have hbegun := begun_refresh_of_opened (p := p) hs hdue
  have hadmits : Admits p (refresh p b now).2 :=
    ⟨by simp [hbegun.state], fun _ => hbegun.counts ▸ probes_pos p⟩
  rw [enter_of_admits (refresh_ok_of_opened hs) hadmits]
  exact ⟨⟨_, rfl⟩, hbegun.state⟩

/-- An open breaker whose end comes before some timeout is over lets a call through before that. -/
theorem exists_early_call {expiry timeout : Duration} (hs : u.breaker.state = .opened)
    (he : u.breaker.expiry = some expiry) (hlt : expiry < u.now + timeout) (hpos : 0 < timeout) :
    ∃ d, u.now + d < u.now + timeout ∧
      ∃ g, (Breaker.enter p u.breaker (u.now + d)).1 = .ok (.ok g) := by
  have hdue : IsDue u.breaker (u.now + (expiry - u.now)) :=
    ⟨expiry, he, Nat.sub_le_iff_le_add'.mp (Nat.le_refl _)⟩
  refine ⟨expiry - u.now, ?_, (enter_ok_of_isDue hs hdue).1⟩
  rcases Nat.le_total u.now expiry with hle | hle
  · rw [Nat.add_sub_cancel' hle]
    exact hlt
  · rw [Nat.sub_eq_zero_of_le hle]
    exact Nat.lt_add_of_pos_right hpos

/-! ## After the end -/

/-- A breaker that was open and has not been asked since: it is still as it was, or somebody has
read it after its timeout and it is half open without a probe. -/
structure Unasked (b : Breaker) (u : Usage) : Prop where
  waiting : u.breaker = b ∨ (u.breaker.state = .halfOpen ∧ u.breaker.counts = {} ∧
    u.breaker.generation = b.generation + 1)
  known : ∀ c ∈ u.inFlight, c.generation ≤ b.generation

theorem Unasked.refreshed {b : Breaker} (hb : b.state = .opened) (h : Unasked b u) :
    Unasked b { u with breaker := (refresh p u.breaker u.now).2 } where
  waiting := by
    rcases h.waiting with heq | hhalf
    · rw [heq]
      rcases refresh_cases p b u.now with hsame | ⟨hs, -, -⟩ | ⟨-, -, hnew⟩
      · exact .inl (congrArg Prod.snd hsame)
      · exact absurd (hs.symm.trans hb) (by simp)
      · exact .inr ⟨hnew.state, hnew.counts, hnew.generation⟩
    · simp only [refresh_of_halfOpen hhalf.1]
      exact .inr hhalf
  known := h.known

/-- Outcomes, readings and the clock leave it so. -/
theorem Unasked.step {b : Breaker} {a : Action} (hb : b.state = .opened) (h : Unasked b u)
    (hreset : a ≠ .reset) (henter : a ≠ .enter) : Unasked b (u.step p a) := by
  cases a with
  | enter => exact absurd rfl henter
  | settle call success =>
    by_cases hcall : call ∈ u.inFlight
    · -- the call is of a generation before the half-open one, or the breaker is open
      have href := h.refreshed (p := p) hb
      have hsame : Breaker.settle p u.breaker call.generation success u.now =
          refresh p u.breaker u.now := by
        have hlate : (refresh p u.breaker u.now).2.generation ≠ call.generation ∨
            (refresh p u.breaker u.now).2.state = .opened := by
          rcases href.waiting with heq | ⟨-, -, hg⟩
          · exact .inr ((congrArg Breaker.state heq).trans hb)
          · have hle := h.known call hcall
            exact .inl (hg ▸ Nat.ne_of_gt (Nat.lt_succ_of_le hle))
        rcases settle_cases p u.breaker call.generation success u.now with
          ⟨-, heq⟩ | ⟨hg, hne, -, -⟩ | ⟨hg, -, hs, -⟩ | ⟨hg, -, hne, -⟩
        · exact heq
        · exact absurd hlate (not_or.mpr ⟨not_not.mpr hg, hne⟩)
        · exact absurd hlate (not_or.mpr ⟨not_not.mpr hg, by simp [hs]⟩)
        · exact absurd hlate (not_or.mpr ⟨not_not.mpr hg, hne⟩)
      simp only [Usage.step, if_pos hcall, hsame]
      exact ⟨href.waiting, fun c hc => h.known c (List.mem_of_mem_erase hc)⟩
    · simp only [Usage.step, if_neg hcall]
      exact h
  | read => exact h.refreshed hb
  | reset => exact absurd rfl hreset
  | wait d => exact ⟨h.waiting, h.known⟩

theorem Unasked.run {b : Breaker} {actions : List Action} (hb : b.state = .opened)
    (h : Unasked b u) (hreset : ∀ a ∈ actions, a ≠ .reset) (henter : ∀ a ∈ actions, a ≠ .enter) :
    Unasked b (u.run p actions) := by
  induction actions generalizing u with
  | nil => exact h
  | cons a actions ih =>
    exact ih (h.step hb (hreset a List.mem_cons_self) (henter a List.mem_cons_self))
      (fun a ha => hreset a (List.mem_cons_of_mem _ ha))
      (fun a ha => henter a (List.mem_cons_of_mem _ ha))

/-- Once the end has come, the first call is let through by a half-open breaker. -/
theorem Unasked.enter {b : Breaker} (hb : b.state = .opened) (h : Unasked b u)
    (hdue : IsDue b u.now) :
    (∃ g, (Breaker.enter p u.breaker u.now).1 = .ok (.ok g)) ∧
      (Breaker.enter p u.breaker u.now).2.state = .halfOpen := by
  rcases h.waiting with heq | ⟨hs, hcounts, -⟩
  · rw [heq]
    exact enter_ok_of_isDue hb hdue
  · have href : refresh p u.breaker u.now = (.ok (), u.breaker) := refresh_of_halfOpen hs
    have hadmits : Admits p (refresh p u.breaker u.now).2 := by
      rw [href]
      exact ⟨by simp [hs], fun _ => hcounts ▸ probes_pos p⟩
    rw [enter_of_admits (congrArg Prod.fst href) hadmits, href]
    exact ⟨⟨_, rfl⟩, hs⟩

/-- An open breaker that is not asked before its end lets the first call from then on through. -/
theorem Sound.enter_after {expiry : Duration} {early late : List Action} (h : Sound p u)
    (hs : u.breaker.state = .opened) (he : u.breaker.expiry = some expiry)
    (hreset : ∀ a ∈ early ++ late, a ≠ .reset) (henter : ∀ a ∈ late, a ≠ .enter)
    (hearly : (u.run p early).now < expiry) (hlate : expiry ≤ (u.run p (early ++ late)).now) :
    let w := u.run p (early ++ late)
    (∃ g, (Breaker.enter p w.breaker w.now).1 = .ok (.ok g)) ∧
      (Breaker.enter p w.breaker w.now).2.state = .halfOpen := by
  intro w
  have hsame : (u.run p early).breaker = u.breaker :=
    breaker_run_of_opened hs (fun a ha => hreset a (List.mem_append_left late ha))
      (not_isDue_of_lt he hearly)
  have hstill : Unasked u.breaker (u.run p early) := by
    refine ⟨.inl hsame, fun c hc => ?_⟩
    have hrun := h.run early
    exact hsame ▸ hrun.past c (hrun.known c hc)
  have hunasked : Unasked u.breaker w := by
    have hrun := hstill.run (p := p) hs (fun a ha => hreset a (List.mem_append_right early ha)) henter
    rwa [← run_append] at hrun
  exact hunasked.enter hs ⟨expiry, he, hlate⟩

/-! ## From opening to the first probe -/

/-- An open breaker has no call of its generation in flight. -/
theorem Sound.ne_of_opened {call : Call} {now : Duration} (h : Sound p u)
    (hcall : call ∈ u.inFlight) (hs : (refresh p u.breaker now).2.state = .opened) :
    (refresh p u.breaker now).2.generation ≠ call.generation := by
  intro hg
  have href := h.refreshed now
  have hknown := h.known call hcall
  exact href.never_opened call hknown ((href.current call hknown hg.symm).trans hs)

/-- **The time that a breaker stays open.** A breaker that opens refuses every call for a timeout and
stays as it is, whatever outcomes and readings come meanwhile, exactly if the end of the timeout can
be told, or else there is no earlier end that it keeps. If it can be told the first call from then on
is admitted by a half-open breaker. All this excepts resets. An open breaker never has a call whose
outcome it could count. -/
theorem open_until_timeout_iff (p : BreakerPolicy) (start : Duration)
    (hstart : expiryFits p .closed start = true) (before : List Action) (a : Action)
    (hfrom : ((fresh p start).run p before).breaker.state ≠ .opened)
    (hinto : (((fresh p start).run p before).step p a).breaker.state = .opened) :
    let v := ((fresh p start).run p before).step p a
    ((∀ after : List Action, (∀ a ∈ after, a ≠ .reset) →
      let w := v.run p after
      w.now < v.now + p.openTimeout →
        w.breaker = v.breaker ∧
        Breaker.enter p w.breaker w.now = (.ok (.error (.circuitOpen p.name)), w.breaker)) ↔
      expiryFits p .opened v.now = true ∨ v.breaker.expiry = none) ∧
    (expiryFits p .opened v.now = true →
      ∀ early late : List Action, (∀ a ∈ early ++ late, a ≠ .reset) → (∀ a ∈ late, a ≠ .enter) →
      (v.run p early).now < v.now + p.openTimeout →
      let w := v.run p (early ++ late)
      v.now + p.openTimeout ≤ w.now →
        (∃ g, (Breaker.enter p w.breaker w.now).1 = .ok (.ok g)) ∧
        (Breaker.enter p w.breaker w.now).2.state = .halfOpen) ∧
    ∀ actions : List Action, let w := (fresh p start).run p actions
      (∀ call ∈ w.admitted, call.state ≠ .opened) ∧
      ∀ call ∈ w.inFlight, ∀ now, (refresh p w.breaker now).2.state = .opened →
        (refresh p w.breaker now).2.generation ≠ call.generation := by
  intro v
  have hsound : Sound p v := (sound_run_fresh p start before).step a
  have hend : EndFits v.breaker := endFits_step (endFits_run hstart before) a
  have hexpiry (hfits : expiryFits p .opened v.now = true) :
      v.breaker.expiry = some (v.now + p.openTimeout) := expiry_of_opens hfrom hinto hfits
  refine ⟨⟨?_, ?_⟩, ?_, ?_⟩
  · intro hshut
    by_contra hnot
    obtain ⟨hunfit, hsome⟩ := not_or.mp hnot
    obtain ⟨expiry, he⟩ := Option.ne_none_iff_exists'.mp hsome
    -- at the end that is kept a call is let through, but the timeout is not over
    have hlt : expiry < v.now + p.openTimeout := hend.lt_timeout he hunfit
    obtain ⟨d, hearly, g, hg⟩ := exists_early_call (p := p) hinto he hlt (openTimeout_pos p)
    have hrefused := (hshut [.wait d] (by simp) hearly).2
    cases hg.symm.trans (congrArg Prod.fst hrefused)
  · intro hcalm after hreset w hw
    refine refuses_of_not_isDue hinto hreset ?_
    rcases hcalm with hfits | hnone
    · exact not_isDue_of_lt (hexpiry hfits) hw
    · rintro ⟨expiry, he, -⟩
      cases hnone.symm.trans he
  · intro hfits early late hreset henter hearly w hw
    exact hsound.enter_after hinto (hexpiry hfits) hreset henter hearly hw
  · intro actions w
    have hw : Sound p w := sound_run_fresh p start actions
    exact ⟨hw.never_opened, fun call hcall now hs => hw.ne_of_opened hcall hs⟩

/-- A breaker that one failure opens at instant 5, for 100 nanoseconds, refuses every call before
instant 105. -/
theorem open_until_timeout_iff_one_failure :
    let p : BreakerPolicy :=
      { name := "backend", timeout := 100, trips := some (BreakerPolicy.consecutive 0) }
    let v := ((fresh p 5).run p [.enter]).step p (.settle ⟨.closed, 0⟩ false)
    v.breaker.state = .opened ∧
    ∀ after : List Action, (∀ a ∈ after, a ≠ .reset) → (v.run p after).now < 105 →
      Breaker.enter p (v.run p after).breaker (v.run p after).now =
        (.ok (.error (.circuitOpen "backend")), (v.run p after).breaker) := by
  intro p v
  refine ⟨by decide, fun after hreset hnow => ?_⟩
  have h := open_until_timeout_iff p 5 (by decide) [.enter] (.settle ⟨.closed, 0⟩ false)
    (by decide) (by decide)
  exact (h.1.mpr (.inl (by decide)) after hreset hnow).2

/-- A breaker whose interval is 5 s and whose timeout is 10 ^ 19 s opens at second 1, and lets a call
through at second 5. -/
theorem opened_admits_before_timeout :
    let p : BreakerPolicy :=
      { name := "backend", interval := Duration.ofSeconds 5
        timeout := Duration.ofSeconds 10000000000000000000
        trips := some (BreakerPolicy.consecutive 0) }
    let v := ((fresh p 0).run p [.wait (Duration.ofSeconds 1), .enter]).step p
      (.settle ⟨.closed, 0⟩ false)
    let w := v.run p [.wait (Duration.ofSeconds 4)]
    ((fresh p 0).run p [.wait (Duration.ofSeconds 1), .enter]).breaker.state = .closed ∧
      v.breaker.state = .opened ∧ w.now < v.now + p.openTimeout ∧
      (Breaker.enter p w.breaker w.now).1 = .ok (.ok 2) ∧
      (Breaker.enter p w.breaker w.now).2.state = .halfOpen := by
  decide

end Gatehouse.Breaker.Usage
