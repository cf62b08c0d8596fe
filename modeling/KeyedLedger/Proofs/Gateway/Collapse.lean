import KeyedLedger.Proofs.Gateway.Gathering

/-! # Callers who collapse

All who wait in one slot share one attempt to publish and one resolution, the first that the slot
was told. If the broker does not take the command before anything else has been told, that is the
resolution. A slot goes when the last of its callers does.
-/

namespace KeyedLedger

namespace Gathering

variable {κ : Type} [DecidableEq κ] {call : κ → Call} {timeout : κ → Span} {o o' : Gathering κ}

/-! ## What lasts -/

/-- Whoever has a result keeps it. -/
theorem Step.result_stays (hstep : o.Step call timeout o') {who : κ}
    {result : Except GatewayError Json} (hresult : (o.progress who).result? = some result) :
    (o'.progress who).result? = some result := by
  have hmoved : ∀ {mover : κ} {p : Attendance},
      (o.progress mover).result? = none ∨ p.result? = (o.progress mover).result? →
        (Function.update o.progress mover p who).result? = some result := by
    intro mover p hp
    by_cases hwho : who = mover
    · subst hwho
      rw [Function.update_self]
      rcases hp with hnone | hsame
      · rw [hnone] at hresult
        cases hresult
      · rw [hsame, hresult]
    · rwa [Function.update_of_ne hwho]
  cases hstep with
  | join hout hrole => exact hmoved (.inl (by rw [hout]; rfl))
  | publish hpublishing hpublish => exact hmoved (.inl (by rw [hpublishing]; rfl))
  | refuse hpublishing hpublish => exact hmoved (.inl (by rw [hpublishing]; rfl))
  | route type event now => exact hresult
  | wake hwaiting houtcome => exact hmoved (.inl (by rw [hwaiting]; rfl))
  | leave hleaving => exact hmoved (.inr (by rw [hleaving]; rfl))
  | aside hwaiting => exact hresult

theorem told_grows (hsteps : Relation.ReflTransGen (Step call timeout) o o') (slot : SlotName) :
    o.told slot <+: o'.told slot := by
  induction hsteps with
  | refl => exact List.prefix_rfl
  | tail _ hstep ih => exact ih.trans (hstep.told_grows slot)

theorem result_stays (hsteps : Relation.ReflTransGen (Step call timeout) o o') {who : κ}
    {result : Except GatewayError Json} (hresult : (o.progress who).result? = some result) :
    (o'.progress who).result? = some result := by
  induction hsteps with
  | refl => exact hresult
  | tail _ hstep ih => exact hstep.result_stays ih

theorem head?_of_grown {α : Type} {xs ys : List α} (h : xs <+: ys) {x : α}
    (hx : xs.head? = some x) : ys.head? = some x := by
  obtain ⟨rest, rfl⟩ := h
  rw [List.head?_append, hx]
  rfl

/-- Once a slot has been told something, everybody attached to it who has no result yet gets that.
-/
theorem Sound.attached_gets (h : o.Sound call timeout) {slot : SlotName} {r : Resolution}
    (hr : (o.told slot).head? = some r)
    (hsteps : Relation.ReflTransGen (Step call timeout) o o') {who : κ}
    (hwho : (o.progress who).result? = none)
    (hjoined : (o'.progress who).joined? = some (.attached, slot))
    {result : Except GatewayError Json} (hresult : (o'.progress who).result? = some result) :
    result = r.result := by
  induction hsteps with
  | refl =>
      rw [hwho] at hresult
      cases hresult
  | @tail middle last hsteps hstep ih =>
      have hsound := h.steps hsteps
      have hbefore := hstep.joined_of_result hjoined hresult
      rcases hstep.result_cases hsound.seated hsound.led hjoined hresult with
        hsame | hold | hwait | ⟨hrole, -⟩
      · rw [hsame] at hresult
        exact ih hbefore hresult
      · exact ih hbefore hold
      · rwa [head?_of_grown (told_grows hsteps slot) hr] at hwait
      · cases hrole

/-- A caller whose command the broker does not take tells its slot. -/
theorem Step.told_of_refused (hstep : o.Step call timeout o') (hled : o.Led call)
    (hseated : o.Seated) {who : κ} {slot : SlotName} {e : BrokerError}
    (hbefore : o.progress who = .publishing slot)
    (hafter : o'.progress who = .leaving .publisher slot (.error (.publish e))) :
    o'.told slot = o.told slot ++ [e.resolution] := by
  have hmover : ∀ {mover : κ} {p : Attendance},
      Function.update o.progress mover p who = .leaving .publisher slot (.error (.publish e)) →
        who = mover := by
    intro mover p hmoved
    by_contra hne
    rw [Function.update_of_ne hne, hbefore] at hmoved
    cases hmoved
  cases hstep with
  | @join mover role hout hrole =>
      cases hmover hafter
      cases hbefore.symm.trans hout
  | @publish ι mover slot' broker broker' now g hpublishing hpublish =>
      cases hmover hafter
      rw [move_self] at hafter
      cases hafter
  | @refuse ι mover slot' broker broker' now g e' hpublishing hpublish =>
      cases hmover hafter
      rw [move_self] at hafter
      cases hafter
      have hplace : (who, slot) ∈ o.desk.roll.places :=
        hseated.mem_places.mpr (by rw [hbefore]; rfl)
      have hkey : slot.key = (call who).key := (hled.joined (by rw [hbefore]; rfl)).1
      have hpending : o.desk.gateway.waiting.isPending (call who).key = true :=
        (Waiting.Keeps.isSome_iff hseated.keeps _).mpr ⟨(who, slot), hplace, hkey⟩
      have hlast : slot = o.desk.roll.last (call who).key :=
        hkey ▸ Waiting.Keeps.eq_last hseated.keeps hplace
      change ((o.desk.roll.tell (o.desk.gateway.waiting.isPending (call who).key) (call who).key
        e.resolution).line slot).told = _
      rw [hpending, hlast, Roll.line_tell_last]
      rfl
  | route type event now => cases hbefore.symm.trans hafter
  | @wake mover role slot' result g hwaiting houtcome =>
      cases hmover hafter
      cases hbefore.symm.trans hwaiting
  | @leave mover role slot' result hleaving =>
      cases hmover hafter
      cases hbefore.symm.trans hleaving
  | aside hwaiting => cases hbefore.symm.trans hafter

/-! ## Calls without interruption -/

theorem exists_publish {who : κ} {slot : SlotName} (hpublishing : o.progress who = .publishing slot)
    (hkey : slot.key = (call who).key) {ι : Type} (broker : Broker ι) (now : Timestamp) :
    ∃ o', Relation.ReflTransGen (Step call timeout) o o' ∧
      match o.desk.gateway.publish broker (call who) now with
      | (.ok (), g, _) => o'.desk.gateway = g ∧ o'.progress who = .waiting .publisher slot
      | (.error e, g, _) => o'.desk.gateway = g.leave (call who).key ∧
          o'.progress who = .gone .publisher slot (.error e) := by
  rcases hpublish : o.desk.gateway.publish broker (call who) now with ⟨e | ⟨⟩, g, broker'⟩
  · obtain ⟨cause, rfl, -⟩ := Gateway.publish_error_waiting hpublish
    have hrefused : o.Step call timeout _ := .refuse hpublishing hpublish
    have hleft : Step call timeout _ _ := .leave (move_self (o.attempt who slot) who
      (.leaving .publisher slot (.error (.publish cause)))
      ⟨g, (o.desk.resolve (call who).key cause.resolution).2.roll⟩)
    exact ⟨_, .tail (.single hrefused) hleft, congrArg g.leave hkey, move_self _ _ _ _⟩
  · exact ⟨_, .single (.publish hpublishing hpublish), rfl, move_self _ _ _ _⟩

/-- A caller whom nobody interrupts starts its call in these steps. -/
theorem exists_start {who : κ} (hout : o.progress who = .outside) {ι : Type}
    (broker : Broker ι) (now : Timestamp) :
    ∃ o', Relation.ReflTransGen (Step call timeout) o o' ∧
      match o.desk.gateway.start broker (call who) now with
      | (.ok (), g, _) => o'.desk.gateway = g ∧ ∃ role slot, o'.progress who = .waiting role slot
      | (.error e, g, _) => o'.desk.gateway = g ∧
          ∃ slot, o'.progress who = .gone .publisher slot (.error e) := by
  rcases hjoin : o.desk.gateway.join (call who).key with ⟨role, g⟩
  have hjoined : o.Step call timeout (o.move who
      (role.progress (o.desk.roll.slotOf (call who).key role))
      ⟨g, o.desk.roll.join who (call who).key role⟩) := by
    have hregister : o.desk.register who (call who).key =
        (role, ⟨g, o.desk.roll.join who (call who).key role⟩) := by
      rw [Desk.register, hjoin]
    have hstep : o.Step call timeout _ := .join hout (congrArg Prod.fst hregister)
    rwa [hregister] at hstep
  rw [Gateway.start, hjoin]
  cases role with
  | attached => exact ⟨_, .single hjoined, rfl, .attached, _, move_self _ _ _ _⟩
  | publisher =>
      have hpublishing := move_self o who (Role.publisher.progress (o.desk.roll.slotOf
        (call who).key .publisher)) ⟨g, o.desk.roll.join who (call who).key .publisher⟩
      obtain ⟨o', hsteps, hpublished⟩ : ∃ o', Relation.ReflTransGen (Step call timeout) _ o' ∧ _ :=
        exists_publish hpublishing rfl broker now
      refine ⟨o', .head hjoined hsteps, ?_⟩
      change match g.publish broker (call who) now with
        | (.ok (), g, _) => _ | (.error e, g, _) => _ at hpublished
      dsimp only
      rcases hpublish : g.publish broker (call who) now with ⟨e | ⟨⟩, g', broker'⟩
      · rw [hpublish] at hpublished
        exact ⟨hpublished.1, _, hpublished.2⟩
      · rw [hpublish] at hpublished
        exact ⟨hpublished.1, .publisher, _, hpublished.2⟩

/-- A caller who waits, and whom nobody interrupts, finishes its call in these steps. -/
theorem exists_finish (hled : o.Led call) {who : κ} {role : Role} {slot : SlotName}
    (hwaiting : o.progress who = .waiting role slot) :
    ∃ o', Relation.ReflTransGen (Step call timeout) o o' ∧
      o'.desk.gateway = (o.desk.gateway.finish (call who) (timeout who)).2 ∧
      o'.progress who =
        .gone role slot (o.desk.gateway.finish (call who) (timeout who)).1 := by
  have hkey : slot.key = (call who).key := (hled.joined (by rw [hwaiting]; rfl)).1
  have hwake : o.Step call timeout _ := .wake hwaiting rfl
  have hleft : Step call timeout _ _ := .leave (move_self o who
    (.leaving role slot (o.desk.gateway.outcome (call who) (timeout who)).1)
    ⟨(o.desk.gateway.outcome (call who) (timeout who)).2, o.desk.roll⟩)
  refine ⟨_, .tail (.single hwake) hleft, ?_, move_self _ _ _ _⟩
  change Gateway.leave _ slot.key = _
  rw [hkey]
  rfl

/-! ## The collapse -/

variable (call timeout) in
/-- The callers of one slot share what happens in it. -/
structure Collapses (o : Gathering κ) : Prop where
  /-- Each slot that has been opened has one leader, who is about to publish or has tried to once,
  and nobody else has tried. -/
  one_attempt : ∀ slot : SlotName, slot.number < o.desk.roll.opened slot.key →
    ∃ who, o.Leads who slot ∧ (∀ who', o.Leads who' slot → who' = who) ∧
      (o.progress who = .publishing slot ∧ o.attempts slot = [] ∨ o.attempts slot = [who])
  /-- When it has gone, its leader has tried. -/
  one_attempt_of_gone : ∀ slot : SlotName, slot.number < o.desk.roll.opened slot.key →
    (∀ place ∈ o.desk.roll.places, place.2 ≠ slot) → ∃ who, o.attempts slot = [who]
  attached_never : ∀ who slot slot', (o.progress who).joined? = some (.attached, slot) →
    who ∉ o.attempts slot'
  /-- Whoever ends its wait with a resolution gets the first that its slot was told. -/
  first_resolution : ∀ who role slot r, (o.progress who).joined? = some (role, slot) →
    (o.progress who).result? = some r.result → (o.told slot).head? = some r
  /-- Any other result is that the caller's time is up, or the error of its own attempt. -/
  other_result : ∀ who role slot result, (o.progress who).joined? = some (role, slot) →
    (o.progress who).result? = some result → (∃ r : Resolution, result = r.result) ∨
      result = .error (.timeout (call who).key (timeout who)) ∨
        role = .publisher ∧ ∃ e, result = .error (.publish e)
  /-- If the broker does not take the command of a slot that has not been told anything, then the
  leader gets the error, and all who are attached and have no result yet get the abort. -/
  refused : ∀ {who slot e o₁ o₂}, o.progress who = .publishing slot → o.told slot = [] →
    o.Step call timeout o₁ → o₁.progress who = .leaving .publisher slot (.error (.publish e)) →
    Relation.ReflTransGen (Step call timeout) o₁ o₂ →
      (o₂.progress who).result? = some (.error (.publish e)) ∧
      ∀ who', (o₁.progress who').result? = none →
        (o₂.progress who').joined? = some (.attached, slot) →
          (∀ result, (o₂.progress who').result? = some result →
            result = .error (.aborted s!"command could not be published: {e.message}")) ∧
          (o₂.progress who' = .waiting .attached slot →
            (o₂.desk.gateway.outcome (call who') (timeout who')).1 =
              .error (.aborted s!"command could not be published: {e.message}"))
  /-- A key has no slot once all its callers are away. -/
  no_slot : ∀ key, (∀ who, (call who).key = key → (o.progress who).isAway = true) →
    o.desk.slot? key = none

omit [DecidableEq κ] in
theorem Attempted.leader_cases (h : o.Attempted) {who : κ} {slot : SlotName}
    (hleads : o.Leads who slot) :
    o.progress who = .publishing slot ∧ o.attempts slot = [] ∨ o.attempts slot = [who] := by
  have hattempts := h.attempts_eq hleads
  cases hprogress : o.progress who with
  | publishing slot' =>
      rw [Leads, hprogress] at hleads
      cases hleads
      rw [hprogress] at hattempts
      exact .inl ⟨rfl, hattempts⟩
  | _ =>
      rw [hprogress] at hattempts
      exact .inr hattempts

omit [DecidableEq κ] in
theorem Sound.not_attempted (h : o.Sound call timeout) {who : κ} {slot : SlotName}
    (hjoined : (o.progress who).joined? = some (.attached, slot)) (slot' : SlotName) :
    who ∉ o.attempts slot' := by
  intro hmem
  -- The leader of a slot alone may have tried, and nobody has for a slot that is yet to be opened.
  rcases Nat.lt_or_ge slot'.number (o.desk.roll.opened slot'.key) with hopened | hnew
  · obtain ⟨leader, hleader⟩ := h.led.exists_leads hopened
    rcases h.attempted.leader_cases hleader with ⟨-, hnone⟩ | hone
    · rw [hnone] at hmem
      cases hmem
    · rw [hone, List.mem_singleton] at hmem
      cases hmem
      rw [Leads, hjoined] at hleader
      cases hleader
  · rw [h.attempted.attempts_new hnew] at hmem
    cases hmem

omit [DecidableEq κ] in
/-- Without callers a key has no slot. -/
theorem Sound.slot?_eq_none (h : o.Sound call timeout) {key : String}
    (haway : ∀ who, (call who).key = key → (o.progress who).isAway = true) :
    o.desk.slot? key = none := by
  rw [← Option.not_isSome_iff_eq_none]
  intro hsome
  obtain ⟨⟨who, slot⟩, hplace, hkey⟩ := (Waiting.Keeps.isSome_iff h.seated.keeps key).mp hsome
  have hheld := h.seated.mem_places.mp hplace
  obtain ⟨role, hjoined⟩ := Attendance.joined?_of_place? hheld
  have hcall : (call who).key = key := (h.led.joined hjoined).1.symm.trans hkey
  rw [Attendance.place?_of_isAway (haway who hcall)] at hheld
  cases hheld

/-- After the broker has refused the command of a slot that had been told nothing. -/
theorem Sound.refused (h : o.Sound call timeout) {who : κ} {slot : SlotName} {e : BrokerError}
    {o₁ o₂ : Gathering κ} (hbefore : o.progress who = .publishing slot) (htold : o.told slot = [])
    (hstep : o.Step call timeout o₁)
    (hafter : o₁.progress who = .leaving .publisher slot (.error (.publish e)))
    (hsteps : Relation.ReflTransGen (Step call timeout) o₁ o₂) :
    (o₂.progress who).result? = some (.error (.publish e)) ∧
      ∀ who', (o₁.progress who').result? = none →
        (o₂.progress who').joined? = some (.attached, slot) →
          (∀ result, (o₂.progress who').result? = some result → result = e.resolution.result) ∧
          (o₂.progress who' = .waiting .attached slot →
            (o₂.desk.gateway.outcome (call who') (timeout who')).1 = e.resolution.result) := by
  have h₁ := h.step hstep
  have h₂ := h₁.steps hsteps
  have hfirst : (o₁.told slot).head? = some e.resolution := by
    rw [hstep.told_of_refused h.led h.seated hbefore hafter, htold]
    rfl
  refine ⟨result_stays hsteps (by rw [hafter]; rfl), fun who' hnone hjoined => ⟨?_, ?_⟩⟩
  · intro result hresult
    exact h₁.attached_gets hfirst hsteps hnone hjoined hresult
  · intro hwaiting
    rw [h₂.seated.outcome h₂.led hwaiting,
      head?_of_grown (told_grows hsteps slot) hfirst]

theorem Sound.toCollapses (h : o.Sound call timeout) : o.Collapses call timeout where
  one_attempt slot hopened := by
    obtain ⟨who, hleads⟩ := h.led.exists_leads hopened
    exact ⟨who, hleads, fun who' hleads' => h.led.leads_unique hleads' hleads,
      h.attempted.leader_cases hleads⟩
  one_attempt_of_gone slot hopened hgone := by
    obtain ⟨who, hleads⟩ := h.led.exists_leads hopened
    rcases h.attempted.leader_cases hleads with ⟨hpublishing, -⟩ | hone
    · have hplace : (who, slot) ∈ o.desk.roll.places :=
        h.seated.mem_places.mpr (by rw [hpublishing]; rfl)
      exact absurd rfl (hgone _ hplace)
    · exact ⟨who, hone⟩
  attached_never who slot slot' hjoined := h.not_attempted hjoined slot'
  first_resolution who role slot r hjoined hresult := by
    rcases h.answered who role slot _ hjoined hresult with
      ⟨r', hr', heq⟩ | hlate | ⟨-, e, htried⟩
    · rw [Resolution.result_injective heq]
      exact hr'
    · exact absurd hlate (Resolution.result_ne_timeout r _ _)
    · exact absurd htried (Resolution.result_ne_publish r e)
  other_result who role slot result hjoined hresult := by
    rcases h.answered who role slot _ hjoined hresult with ⟨r, -, heq⟩ | hother
    · exact .inl ⟨r, heq⟩
    · exact .inr hother
  refused hbefore htold hstep hafter hsteps := h.refused hbefore htold hstep hafter hsteps
  no_slot key haway := h.slot?_eq_none haway

/-- However the steps of callers interleave, the callers of one slot share what happens in it. -/
theorem Reached.collapses (h : o.Reached call timeout) : o.Collapses call timeout :=
  h.sound.toCollapses

end Gathering

namespace Sample

/-- The call of each of two callers who share a key. -/
def sharedCall (_ : Bool) : Call :=
  ⟨"topic", "key", "request", "TYPE", "Command.v1", .null⟩

/-- They have no time to wait. -/
def noTime (_ : Bool) : Span :=
  ⟨0⟩

/-- A broker that is out of reach. -/
def deadBroker : Broker Unit :=
  { reachable := false }

/-- Why it does not take a command. -/
def outOfReach : BrokerError :=
  .publishFailed "topic" "broker unavailable"

/-- A caller opens a slot and another attaches to it. -/
def pair : Gathering Bool :=
  let opened := ({ desk := ⟨{ memory := ⟨1000, []⟩ }, {}⟩ } : Gathering Bool)
  let led := opened.move true (.publishing ⟨"key", 0⟩) (opened.desk.register true "key").2
  led.move false (.waiting .attached ⟨"key", 0⟩) (led.desk.register false "key").2

theorem reached_pair : pair.Reached sharedCall noTime := by
  refine ⟨⟨{ memory := ⟨1000, []⟩ }, {}⟩, rfl, rfl, ?_⟩
  exact .tail (.single (@Gathering.Step.join _ _ _ _ _ true .publisher rfl rfl))
    (@Gathering.Step.join _ _ _ _ _ false .attached rfl rfl)

/-- The broker does not take the command of the first. -/
def refusedPair : Gathering Bool :=
  (pair.attempt true ⟨"key", 0⟩).move true
    (.leaving .publisher ⟨"key", 0⟩ (.error (.publish outOfReach)))
    ⟨(pair.desk.gateway.publish deadBroker (sharedCall true) .start2025).2.1,
      (pair.desk.resolve "key" outOfReach.resolution).2.roll⟩

/-- Both get to know. -/
theorem exists_collapses : ∃ o : Gathering Bool,
    o.Reached sharedCall noTime ∧ o.Collapses sharedCall noTime ∧
      (o.progress true).result? = some (.error (.publish outOfReach)) ∧
      (o.progress false).result? = some outOfReach.resolution.result := by
  have hrefused : pair.Step sharedCall noTime refusedPair :=
    @Gathering.Step.refuse _ _ _ _ _ Unit true ⟨"key", 0⟩ deadBroker deadBroker .start2025 _
      outOfReach rfl rfl
  have hwoken : refusedPair.Step sharedCall noTime _ :=
    @Gathering.Step.wake _ _ _ _ _ false .attached ⟨"key", 0⟩ _ _ rfl
      (Gateway.outcome_of_some rfl (noTime false))
  have hreached := (reached_pair.step hrefused).step hwoken
  exact ⟨_, hreached, hreached.collapses, rfl, rfl⟩

end Sample

end KeyedLedger
