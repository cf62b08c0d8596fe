import KeyedLedger.Proofs.Gateway.Desk

/-! # Callers at one gateway

Any number of callers publish commands and wait for their outcomes at one gateway, under any keys.
Their steps interleave in any order with outcomes that arrive. In each slot one caller publishes,
and all whose wait ends with a resolution get the one that came first.
-/

namespace KeyedLedger

namespace Desk

variable {κ : Type}

/-- Two desks at which the same callers wait and have been told the same. -/
structure Like (d d' : Desk κ) : Prop where
  waiting : d'.gateway.waiting = d.gateway.waiting
  roll : d'.roll = d.roll

theorem Like.keeps {d d' : Desk κ} (h : d.Like d') (hkeeps : d.Keeps) : d'.Keeps := by
  rw [Keeps, h.waiting, h.roll]
  exact hkeeps

/-- An event of a domain arrives. -/
def route (d : Desk κ) (type : RequestType) (event : Event) (now : Timestamp) : Desk κ :=
  ⟨(d.gateway.route type event now).2,
    match Gateway.heard? type event with
    | some (key, r) => (d.resolve key r).2.roll
    | none => d.roll⟩

/-- An event resolves a key, or nobody who waits notices it. -/
theorem route_cases (d : Desk κ) (type : RequestType) (event : Event) (now : Timestamp) :
    (∃ key r, (d.resolve key r).2.Like (d.route type event now)) ∨
      d.Like (d.route type event now) := by
  have hwaiting := d.gateway.route_waiting type event now
  rw [route]
  cases hheard : Gateway.heard? type event with
  | none =>
      rw [hheard] at hwaiting
      exact .inr ⟨hwaiting, rfl⟩
  | some heard =>
      rw [hheard] at hwaiting
      exact .inl ⟨heard.1, heard.2, hwaiting, rfl⟩

end Desk

/-! ## Steps -/

/-- How far a caller has come, its role and its slot once it has joined, and what it gets once its
wait is over. -/
inductive Attendance where
  | outside
  | publishing (slot : SlotName)
  | waiting (role : Role) (slot : SlotName)
  | leaving (role : Role) (slot : SlotName) (result : Except GatewayError Json)
  | gone (role : Role) (slot : SlotName) (result : Except GatewayError Json)

namespace Attendance

/-- The slot that the caller holds a place in. -/
def place? : Attendance → Option SlotName
  | publishing slot => some slot
  | waiting _ slot => some slot
  | leaving _ slot _ => some slot
  | _ => none

/-- The slot that the caller has joined, and as what. -/
def joined? : Attendance → Option (Role × SlotName)
  | outside => none
  | publishing slot => some (.publisher, slot)
  | waiting role slot => some (role, slot)
  | leaving role slot _ => some (role, slot)
  | gone role slot _ => some (role, slot)

/-- What the caller gets. -/
def result? : Attendance → Option (Except GatewayError Json)
  | leaving _ _ result => some result
  | gone _ _ result => some result
  | _ => none

/-- The caller has still to publish. -/
def isPublishing : Attendance → Bool
  | publishing _ => true
  | _ => false

/-- The caller has not come yet, or has left. -/
def isAway : Attendance → Bool
  | outside => true
  | gone _ _ _ => true
  | _ => false

theorem place?_of_isAway {p : Attendance} (h : p.isAway = true) : p.place? = none := by
  cases p <;> first | rfl | cases h

theorem joined?_of_place? {p : Attendance} {slot : SlotName} (h : p.place? = some slot) :
    ∃ role, p.joined? = some (role, slot) := by
  cases p with
  | outside => cases h
  | publishing slot' => exact ⟨.publisher, by cases h; rfl⟩
  | waiting role slot' => exact ⟨role, by cases h; rfl⟩
  | leaving role slot' result => exact ⟨role, by cases h; rfl⟩
  | gone role slot' result => cases h

end Attendance

/-- The first step of a caller who has joined in some role. -/
def Role.progress : Role → SlotName → Attendance
  | publisher, slot => .publishing slot
  | attached, slot => .waiting .attached slot

theorem Role.joined?_progress (role : Role) (slot : SlotName) :
    (role.progress slot).joined? = some (role, slot) := by
  cases role <;> rfl

theorem Role.result?_progress (role : Role) (slot : SlotName) :
    (role.progress slot).result? = none := by
  cases role <;> rfl

/-- The callers at a gateway, and for each slot those who have tried to publish. -/
structure Gathering (κ : Type) where
  desk : Desk κ
  progress : κ → Attendance := fun _ => .outside
  attempts : SlotName → List κ := fun _ => []

namespace Gathering

variable {κ : Type} [DecidableEq κ]

/-- A caller comes to some point. -/
def move (o : Gathering κ) (who : κ) (p : Attendance) (desk : Desk κ) : Gathering κ :=
  { o with desk := desk, progress := Function.update o.progress who p }

/-- A caller tries to publish for its slot. -/
def attempt (o : Gathering κ) (who : κ) (slot : SlotName) : Gathering κ :=
  { o with attempts := Function.update o.attempts slot (o.attempts slot ++ [who]) }

variable (call : κ → Call) (timeout : κ → Span)

/-- A caller takes its next step, an outcome arrives, or the gateway does something else that those
who wait do not notice. The broker takes a command or does not. A caller whose key has not been
resolved may give up at any time. -/
inductive Step (o : Gathering κ) : Gathering κ → Prop
  | join {who : κ} {role : Role} (hout : o.progress who = .outside)
      (hrole : (o.desk.register who (call who).key).1 = role) :
      Step o (o.move who (role.progress (o.desk.roll.slotOf (call who).key role))
        (o.desk.register who (call who).key).2)
  | publish {ι : Type} {who : κ} {slot : SlotName} {broker broker' : Broker ι} {now : Timestamp}
      {g : Gateway} (hpublishing : o.progress who = .publishing slot)
      (hpublish : o.desk.gateway.publish broker (call who) now = (.ok (), g, broker')) :
      Step o ((o.attempt who slot).move who (.waiting .publisher slot) ⟨g, o.desk.roll⟩)
  | refuse {ι : Type} {who : κ} {slot : SlotName} {broker broker' : Broker ι} {now : Timestamp}
      {g : Gateway} {e : BrokerError} (hpublishing : o.progress who = .publishing slot)
      (hpublish :
        o.desk.gateway.publish broker (call who) now = (.error (.publish e), g, broker')) :
      Step o ((o.attempt who slot).move who (.leaving .publisher slot (.error (.publish e)))
        ⟨g, (o.desk.resolve (call who).key e.resolution).2.roll⟩)
  | route (type : RequestType) (event : Event) (now : Timestamp) :
      Step o { o with desk := o.desk.route type event now }
  | wake {who : κ} {role : Role} {slot : SlotName} {result : Except GatewayError Json} {g : Gateway}
      (hwaiting : o.progress who = .waiting role slot)
      (houtcome : o.desk.gateway.outcome (call who) (timeout who) = (result, g)) :
      Step o (o.move who (.leaving role slot result) ⟨g, o.desk.roll⟩)
  | leave {who : κ} {role : Role} {slot : SlotName} {result : Except GatewayError Json}
      (hleaving : o.progress who = .leaving role slot result) :
      Step o (o.move who (.gone role slot result) (o.desk.drop who slot))
  | aside {g : Gateway} (hwaiting : g.waiting = o.desk.gateway.waiting) :
      Step o { o with desk := ⟨g, o.desk.roll⟩ }

/-- A gathering that callers may have come to since nobody waited. -/
def Reached (o : Gathering κ) : Prop :=
  ∃ desk : Desk κ, desk.gateway.waiting = {} ∧ desk.roll = {} ∧
    Relation.ReflTransGen (Step call timeout) { desk := desk } o

/-- The caller is the one who has to publish for a slot. -/
def Leads (o : Gathering κ) (who : κ) (slot : SlotName) : Prop :=
  (o.progress who).joined? = some (.publisher, slot)

/-- What a slot has been told so far. -/
def told (o : Gathering κ) (slot : SlotName) : List Resolution :=
  (o.desk.roll.line slot).told

theorem move_self (o : Gathering κ) (who : κ) (p : Attendance) (desk : Desk κ) :
    (o.move who p desk).progress who = p :=
  Function.update_self _ _ _

theorem move_of_ne (o : Gathering κ) {who who' : κ} (p : Attendance) (desk : Desk κ)
    (hne : who' ≠ who) : (o.move who p desk).progress who' = o.progress who' :=
  Function.update_of_ne hne _ _

/-- Nothing about the callers changes that the one who moves has in common with itself before. -/
theorem move_congr {α : Type} (f : Attendance → α) (o : Gathering κ) {who : κ} {p : Attendance}
    (desk : Desk κ) (hp : f p = f (o.progress who)) (who' : κ) :
    f ((o.move who p desk).progress who') = f (o.progress who') := by
  by_cases hwho : who' = who
  · rw [hwho, move_self, hp]
  · rw [move_of_ne o p desk hwho]

/-! ## Places -/

/-- The places that are held are those of the callers who wait. -/
structure Seated (o : Gathering κ) : Prop where
  keeps : o.desk.Keeps
  nodup : o.desk.roll.places.Nodup
  mem_places : ∀ {who slot},
    (who, slot) ∈ o.desk.roll.places ↔ (o.progress who).place? = some slot

section

variable {call timeout}
variable {o o' : Gathering κ}

theorem Reached.step (h : o.Reached call timeout)
    (hstep : o.Step call timeout o') : o'.Reached call timeout := by
  obtain ⟨desk, hwaiting, hroll, hsteps⟩ := h
  exact ⟨desk, hwaiting, hroll, .tail hsteps hstep⟩

omit [DecidableEq κ] in
/-- Nobody comes or goes. -/
theorem Seated.stay (h : o.Seated) (hkeeps : o'.desk.Keeps)
    (hplaces : o'.desk.roll.places = o.desk.roll.places)
    (hprogress : ∀ who, (o'.progress who).place? = (o.progress who).place?) : o'.Seated := by
  refine ⟨hkeeps, hplaces ▸ h.nodup, fun {who slot} => ?_⟩
  rw [hplaces, hprogress]
  exact h.mem_places

theorem Seated.step (h : o.Seated) (hstep : o.Step call timeout o') : o'.Seated := by
  cases hstep with
  | @join who role hout hrole =>
      have hnone : ∀ slot, (who, slot) ∉ o.desk.roll.places := by
        intro slot hmem
        rw [h.mem_places, hout] at hmem
        cases hmem
      have hplaces : (o.desk.register who (call who).key).2.roll.places =
          (who, o.desk.roll.slotOf (call who).key role) :: o.desk.roll.places := by
        subst hrole
        rfl
      refine ⟨(Desk.Step.register who (call who).key).keeps h.keeps, ?_, fun {who' slot} => ?_⟩
      · exact hplaces ▸ List.nodup_cons.mpr ⟨hnone _, h.nodup⟩
      · refine (Iff.of_eq (congrArg _ hplaces)).trans (List.mem_cons.trans ?_)
        rw [Prod.mk.injEq]
        by_cases hwho : who' = who
        · subst hwho
          rw [move_self]
          cases role <;> simp [Role.progress, Attendance.place?, hnone, eq_comm]
        · rw [move_of_ne o _ _ hwho, h.mem_places]
          simp [hwho]
  | publish hpublishing hpublish =>
      exact h.stay (Desk.Like.keeps ⟨Gateway.publish_ok_waiting hpublish, rfl⟩ h.keeps) rfl
        (move_congr Attendance.place? _ _ (by rw [attempt, hpublishing]; rfl))
  | @refuse ι who slot broker broker' now g e hpublishing hpublish =>
      obtain ⟨cause, hcause, hwaiting⟩ := Gateway.publish_error_waiting hpublish
      cases hcause
      have hlike : (o.desk.resolve (call who).key e.resolution).2.Like
        ⟨g, (o.desk.resolve (call who).key e.resolution).2.roll⟩ := ⟨hwaiting, rfl⟩
      exact h.stay (hlike.keeps ((Desk.Step.resolve _ _).keeps h.keeps)) (Roll.places_tell _ _ _ _)
        (move_congr Attendance.place? _ _ (by rw [attempt, hpublishing]; rfl))
  | route type event now =>
      rcases o.desk.route_cases type event now with ⟨key, r, hlike⟩ | hlike
      · exact h.stay (hlike.keeps ((Desk.Step.resolve key r).keeps h.keeps))
          ((congrArg Roll.places hlike.roll).trans (Roll.places_tell _ _ _ _)) fun _ => rfl
      · exact h.stay (hlike.keeps h.keeps) (congrArg Roll.places hlike.roll) fun _ => rfl
  | @wake who role slot result g hwaiting houtcome =>
      have hg := Gateway.outcome_waiting o.desk.gateway (call who) (timeout who)
      rw [houtcome] at hg
      exact h.stay (Desk.Like.keeps ⟨hg, rfl⟩ h.keeps) rfl
        (move_congr Attendance.place? _ _ (by rw [hwaiting]; rfl))
  | @leave who role slot result hleaving =>
      have hplace : (who, slot) ∈ o.desk.roll.places :=
        h.mem_places.mpr (by rw [hleaving]; rfl)
      refine ⟨(Desk.Step.drop hplace).keeps h.keeps, h.nodup.erase _, fun {who' slot'} => ?_⟩
      refine h.nodup.mem_erase_iff.trans ?_
      by_cases hwho : who' = who
      · subst hwho
        rw [move_self, h.mem_places, hleaving]
        simp [Attendance.place?, eq_comm]
      · rw [move_of_ne o _ _ hwho, ← h.mem_places]
        simp [hwho]
  | aside hwaiting => exact h.stay (Desk.Like.keeps ⟨hwaiting, rfl⟩ h.keeps) rfl fun _ => rfl

/-! ## Leaders -/

variable (call) in
/-- Each slot that has been opened has one leader. -/
structure Led (o : Gathering κ) : Prop where
  joined : ∀ {who role slot}, (o.progress who).joined? = some (role, slot) →
    slot.key = (call who).key ∧ slot.number < o.desk.roll.opened slot.key
  exists_leads : ∀ {slot : SlotName}, slot.number < o.desk.roll.opened slot.key →
    ∃ who, o.Leads who slot
  leads_unique : ∀ {who who' slot}, o.Leads who slot → o.Leads who' slot → who = who'

omit [DecidableEq κ] in
theorem Led.stay (h : o.Led call) (hopened : o'.desk.roll.opened = o.desk.roll.opened)
    (hjoined : ∀ who, (o'.progress who).joined? = (o.progress who).joined?) : o'.Led call := by
  refine ⟨fun {who role slot} hslot => ?_, fun {slot} hslot => ?_, fun {who who' slot} h₁ h₂ => ?_⟩
  · rw [hjoined] at hslot
    rw [hopened]
    exact h.joined hslot
  · rw [hopened] at hslot
    obtain ⟨who, hwho⟩ := h.exists_leads hslot
    exact ⟨who, (hjoined who).trans hwho⟩
  · exact h.leads_unique ((hjoined who).symm.trans h₁) ((hjoined who').symm.trans h₂)

/-- Whoever has joined had joined before, or has come just now. -/
theorem joined?_move_outside {who : κ} (hout : o.progress who = .outside) (p : Attendance)
    (desk : Desk κ) {who' : κ} {seat : Role × SlotName} :
    ((o.move who p desk).progress who').joined? = some seat ↔
      (o.progress who').joined? = some seat ∨ who' = who ∧ p.joined? = some seat := by
  by_cases hwho : who' = who
  · subst hwho
    rw [move_self, hout]
    simp [Attendance.joined?]
  · rw [move_of_ne o p desk hwho]
    simp [hwho]

theorem Led.join (h : o.Led call) (hkeeps : o.desk.Keeps) {who : κ}
    (hout : o.progress who = .outside) {role : Role}
    (hrole : (o.desk.register who (call who).key).1 = role) :
    (o.move who (role.progress (o.desk.roll.slotOf (call who).key role))
      (o.desk.register who (call who).key).2).Led call := by
  have hopened : ∀ {slot : SlotName},
      slot.number < (o.desk.register who (call who).key).2.roll.opened slot.key ↔
        slot.number < o.desk.roll.opened slot.key ∨
          role = .publisher ∧ slot = ⟨(call who).key, o.desk.roll.opened (call who).key⟩ := by
    subst hrole
    exact o.desk.roll.lt_opened_join who (call who).key _
  constructor
  · intro who' role' slot hjoined
    rcases (joined?_move_outside hout _ _).mp hjoined with hold | ⟨rfl, hnew⟩
    · exact ⟨(h.joined hold).1, hopened.mpr (.inl (h.joined hold).2)⟩
    · rw [Role.joined?_progress] at hnew
      cases hnew
      refine ⟨Roll.slotOf_key _ _ _, hopened.mpr ?_⟩
      cases role with
      | publisher => exact .inr ⟨rfl, rfl⟩
      | attached =>
          exact .inl (Waiting.Keeps.last_lt hkeeps (Waiting.join_fst_eq_attached.mp hrole))
  · intro slot hslot
    rcases hopened.mp hslot with hold | ⟨rfl, rfl⟩
    · obtain ⟨leader, hleader⟩ := h.exists_leads hold
      exact ⟨leader, (joined?_move_outside hout _ _).mpr (.inl hleader)⟩
    · exact ⟨who, (joined?_move_outside hout _ _).mpr (.inr ⟨rfl, rfl⟩)⟩
  -- Nobody leads the new slot but the one who has just come.
  · have hnew : ∀ {who' slot}, o.Leads who' slot →
        (role.progress (o.desk.roll.slotOf (call who).key role)).joined? ≠
          some (.publisher, slot) := by
      intro who' slot hold heq
      rw [Role.joined?_progress] at heq
      cases heq
      exact Nat.lt_irrefl _ (h.joined hold).2
    intro who₁ who₂ slot h₁ h₂
    rcases (joined?_move_outside hout _ _).mp h₁ with hold₁ | ⟨rfl, hnew₁⟩ <;>
      rcases (joined?_move_outside hout _ _).mp h₂ with hold₂ | ⟨rfl, hnew₂⟩
    · exact h.leads_unique hold₁ hold₂
    · exact absurd hnew₂ (hnew hold₁)
    · exact absurd hnew₁ (hnew hold₂)
    · rfl

/-! ## Every step -/

/-- A step is that of a caller who joins, or nobody joins and no slot is opened. -/
theorem Step.joins_or_stays (hstep : o.Step call timeout o') :
    (∃ who role, o.progress who = .outside ∧ (o.desk.register who (call who).key).1 = role ∧
      o' = o.move who (role.progress (o.desk.roll.slotOf (call who).key role))
        (o.desk.register who (call who).key).2) ∨
    o'.desk.roll.opened = o.desk.roll.opened ∧
      ∀ who, (o'.progress who).joined? = (o.progress who).joined? := by
  cases hstep with
  | join hout hrole => exact .inl ⟨_, _, hout, hrole, rfl⟩
  | publish hpublishing hpublish =>
      exact .inr ⟨rfl, move_congr Attendance.joined? _ _ (by rw [attempt, hpublishing]; rfl)⟩
  | refuse hpublishing hpublish =>
      exact .inr ⟨Roll.opened_tell _ _ _ _,
        move_congr Attendance.joined? _ _ (by rw [attempt, hpublishing]; rfl)⟩
  | route type event now =>
      refine .inr ⟨?_, fun _ => rfl⟩
      rcases o.desk.route_cases type event now with ⟨key, r, hlike⟩ | hlike
      · exact (congrArg Roll.opened hlike.roll).trans (Roll.opened_tell _ _ _ _)
      · exact congrArg Roll.opened hlike.roll
  | wake hwaiting houtcome =>
      exact .inr ⟨rfl, move_congr Attendance.joined? _ _ (by rw [hwaiting]; rfl)⟩
  | leave hleaving =>
      exact .inr ⟨rfl, move_congr Attendance.joined? _ _ (by rw [hleaving]; rfl)⟩
  | aside hwaiting => exact .inr ⟨rfl, fun _ => rfl⟩

theorem Led.step (h : o.Led call) (hseated : o.Seated) (hstep : o.Step call timeout o') :
    o'.Led call := by
  rcases hstep.joins_or_stays with ⟨who, role, hout, hrole, rfl⟩ | ⟨hopened, hjoined⟩
  · exact h.join hseated.keeps hout hrole
  · exact h.stay hopened hjoined

/-- What a slot has been told is not taken back. -/
theorem Step.told_grows (hstep : o.Step call timeout o') (slot : SlotName) :
    o.told slot <+: o'.told slot := by
  cases hstep with
  | join hout hrole => exact List.prefix_rfl
  | publish hpublishing hpublish => exact List.prefix_rfl
  | refuse hpublishing hpublish => exact Roll.told_grows_tell _ _ _ _ _
  | route type event now =>
      rcases o.desk.route_cases type event now with ⟨key, r, hlike⟩ | hlike
      · rw [told, told, hlike.roll]
        exact Roll.told_grows_tell _ _ _ _ _
      · simp only [told, hlike.roll, List.prefix_rfl]
  | wake hwaiting houtcome => exact List.prefix_rfl
  | leave hleaving =>
      refine Eq.subst (Eq.symm ?_) List.prefix_rfl
      exact o.desk.roll.told_leave _ _ _ slot
  | aside hwaiting => exact List.prefix_rfl

/-! ## Attempts -/

/-- The leader of a slot tries once to publish, and nobody else does. -/
structure Attempted (o : Gathering κ) : Prop where
  attempts_eq : ∀ {who slot}, o.Leads who slot →
    o.attempts slot = if (o.progress who).isPublishing then [] else [who]
  attempts_new : ∀ {slot : SlotName}, o.desk.roll.opened slot.key ≤ slot.number →
    o.attempts slot = []

omit [DecidableEq κ] in
theorem Attempted.stay (h : o.Attempted) (hattempts : o'.attempts = o.attempts)
    (hopened : o'.desk.roll.opened = o.desk.roll.opened)
    (hjoined : ∀ who, (o'.progress who).joined? = (o.progress who).joined?)
    (hpublishing : ∀ who, (o'.progress who).isPublishing = (o.progress who).isPublishing) :
    o'.Attempted := by
  constructor
  · intro who slot hleads
    rw [hattempts, hpublishing]
    exact h.attempts_eq ((hjoined who).symm.trans hleads)
  · intro slot hslot
    rw [hopened] at hslot
    rw [hattempts]
    exact h.attempts_new hslot

/-- The leader of a slot tries to publish. -/
theorem Attempted.attempt (h : o.Attempted) (hled : o.Led call) {who : κ} {slot : SlotName}
    (hpublishing : o.progress who = .publishing slot) {p : Attendance}
    (hjoined : p.joined? = some (.publisher, slot)) (hp : p.isPublishing = false) {desk : Desk κ}
    (hopened : desk.roll.opened = o.desk.roll.opened) :
    ((o.attempt who slot).move who p desk).Attempted := by
  have hleads : o.Leads who slot := by rw [Leads, hpublishing]; rfl
  have hother : ∀ {slot'}, slot' ≠ slot →
      ((o.attempt who slot).move who p desk).attempts slot' = o.attempts slot' :=
    fun hne => Function.update_of_ne hne _ _
  constructor
  · intro who' slot' hleads'
    by_cases hwho : who' = who
    · subst hwho
      rw [Leads, move_self, hjoined] at hleads'
      cases hleads'
      rw [move_self, hp]
      change Function.update o.attempts slot (o.attempts slot ++ [who']) slot = [who']
      rw [Function.update_self, h.attempts_eq hleads, hpublishing]
      rfl
    · rw [Leads, move_of_ne _ _ _ hwho] at hleads'
      have hne : slot' ≠ slot := by
        rintro rfl
        exact hwho (hled.leads_unique hleads' hleads)
      rw [hother hne, move_of_ne _ _ _ hwho]
      exact h.attempts_eq hleads'
  · intro slot' hslot'
    change desk.roll.opened slot'.key ≤ slot'.number at hslot'
    rw [hopened] at hslot'
    have hne : slot' ≠ slot := by
      rintro rfl
      exact Nat.not_le_of_lt (hled.joined hleads).2 hslot'
    rw [hother hne]
    exact h.attempts_new hslot'

theorem Attempted.join (h : o.Attempted) {who : κ} (hout : o.progress who = .outside) {role : Role}
    (hrole : (o.desk.register who (call who).key).1 = role) :
    (o.move who (role.progress (o.desk.roll.slotOf (call who).key role))
      (o.desk.register who (call who).key).2).Attempted := by
  constructor
  · intro who' slot hleads
    rcases (joined?_move_outside hout _ _).mp hleads with hold | ⟨rfl, hnew⟩
    · have hne : who' ≠ who := by
        rintro rfl
        rw [hout] at hold
        cases hold
      rw [move_of_ne _ _ _ hne]
      exact h.attempts_eq hold
    · rw [Role.joined?_progress] at hnew
      cases hnew
      rw [move_self]
      exact h.attempts_new (Nat.le_refl _)
  · intro slot hslot
    exact h.attempts_new (Nat.le_trans (Roll.opened_le_join _ _ _ _ _) hslot)

theorem Attempted.step (h : o.Attempted) (hled : o.Led call) (hstep : o.Step call timeout o') :
    o'.Attempted := by
  rcases hstep.joins_or_stays with ⟨who, role, hout, hrole, rfl⟩ | ⟨hopened, hjoined⟩
  · exact h.join hout hrole
  cases hstep with
  | join hout hrole => exact h.join hout hrole
  | publish hpublishing hpublish => exact h.attempt hled hpublishing rfl rfl rfl
  | refuse hpublishing hpublish =>
      exact h.attempt hled hpublishing rfl rfl (Roll.opened_tell _ _ _ _)
  | route type event now => exact h.stay rfl hopened hjoined fun _ => rfl
  | wake hwaiting houtcome =>
      exact h.stay rfl hopened hjoined
        (move_congr Attendance.isPublishing _ _ (by rw [hwaiting]; rfl))
  | leave hleaving =>
      exact h.stay rfl hopened hjoined
        (move_congr Attendance.isPublishing _ _ (by rw [hleaving]; rfl))
  | aside hwaiting => exact h.stay rfl hopened hjoined fun _ => rfl

/-! ## Results -/

/-- What a caller may get: the first resolution of its slot, or nothing in time, or else the error
of its own attempt to publish. -/
def Gets (o : Gathering κ) (call : Call) (timeout : Span) (role : Role) (slot : SlotName)
    (result : Except GatewayError Json) : Prop :=
  (∃ r, (o.told slot).head? = some r ∧ result = r.result) ∨
    result = .error (.timeout call.key timeout) ∨
      role = .publisher ∧ ∃ e, result = .error (.publish e)

variable (call timeout) in
/-- Whoever has a result got it in its slot. -/
def Answered (o : Gathering κ) : Prop :=
  ∀ who role slot result, (o.progress who).joined? = some (role, slot) →
    (o.progress who).result? = some result → o.Gets (call who) (timeout who) role slot result

omit [DecidableEq κ] in
theorem Gets.mono {role : Role} {slot : SlotName} {result : Except GatewayError Json} {c : Call}
    {span : Span} (h : o.Gets c span role slot result) (htold : o.told slot <+: o'.told slot) :
    o'.Gets c span role slot result := by
  rcases h with ⟨r, hr, hresult⟩ | h
  · obtain ⟨later, hlater⟩ := htold
    exact .inl ⟨r, by rw [← hlater, List.head?_append, hr]; rfl, hresult⟩
  · exact .inr h

omit [DecidableEq κ] in
/-- The wait of a caller ends with the first resolution of its slot, or else its time is up. -/
theorem Seated.outcome (h : o.Seated) (hled : o.Led call) {who : κ} {role : Role} {slot : SlotName}
    (hwaiting : o.progress who = .waiting role slot) (span : Span) :
    (o.desk.gateway.outcome (call who) span).1 =
      match (o.told slot).head? with
      | some r => r.result
      | none => .error (.timeout (call who).key span) := by
  have hplace : (who, slot) ∈ o.desk.roll.places := h.mem_places.mpr (by rw [hwaiting]; rfl)
  have hkey : slot.key = (call who).key := (hled.joined (by rw [hwaiting]; rfl)).1
  have hseen := Waiting.Keeps.outcome?_eq h.keeps hplace
  rw [hkey] at hseen
  change _ = (o.told slot).head? at hseen
  cases hhead : (o.told slot).head? with
  | some r => rw [Gateway.outcome_of_some (hseen.trans hhead)]
  | none => exact Gateway.outcome_of_none (hseen.trans hhead) span

/-- Whoever has a result after a step had it before, has waited for it, or has tried to publish in
vain. -/
theorem Step.result_cases (hseated : o.Seated) (hled : o.Led call)
    (hstep : o.Step call timeout o') {who : κ} {role : Role} {slot : SlotName}
    {result : Except GatewayError Json} (hjoined : (o'.progress who).joined? = some (role, slot))
    (hresult : (o'.progress who).result? = some result) :
    o'.progress who = o.progress who ∨ (o.progress who).result? = some result ∨
      (result = match (o.told slot).head? with
        | some r => r.result
        | none => .error (.timeout (call who).key (timeout who))) ∨
      role = .publisher ∧ ∃ e, result = .error (.publish e) := by
  cases hstep with
  | @join mover role' hout hrole =>
      by_cases hwho : who = mover
      · subst hwho
        rw [move_self, Role.result?_progress] at hresult
        cases hresult
      · exact .inl (move_of_ne _ _ _ hwho)
  | @publish ι mover slot' broker broker' now g hpublishing hpublish =>
      by_cases hwho : who = mover
      · subst hwho
        rw [move_self] at hresult
        cases hresult
      · exact .inl (move_of_ne _ _ _ hwho)
  | @refuse ι mover slot' broker broker' now g e hpublishing hpublish =>
      by_cases hwho : who = mover
      · subst hwho
        rw [move_self] at hresult hjoined
        cases hresult
        cases hjoined
        exact .inr (.inr (.inr ⟨rfl, e, rfl⟩))
      · exact .inl (move_of_ne _ _ _ hwho)
  | route type event now => exact .inl rfl
  | @wake mover role' slot' result' g hwaiting houtcome =>
      by_cases hwho : who = mover
      · subst hwho
        rw [move_self] at hresult hjoined
        cases hresult
        cases hjoined
        have hgets := hseated.outcome hled hwaiting (timeout who)
        rw [houtcome] at hgets
        exact .inr (.inr (.inl hgets))
      · exact .inl (move_of_ne _ _ _ hwho)
  | @leave mover role' slot' result' hleaving =>
      by_cases hwho : who = mover
      · subst hwho
        rw [move_self] at hresult
        exact .inr (.inl (by rw [hleaving]; exact hresult))
      · exact .inl (move_of_ne _ _ _ hwho)
  | aside hwaiting => exact .inl rfl

/-- Whoever has a result stays where it joined. -/
theorem Step.joined_of_result (hstep : o.Step call timeout o') {who : κ} {seat : Role × SlotName}
    {result : Except GatewayError Json} (hjoined : (o'.progress who).joined? = some seat)
    (hresult : (o'.progress who).result? = some result) :
    (o.progress who).joined? = some seat := by
  rcases hstep.joins_or_stays with ⟨mover, role, hout, hrole, rfl⟩ | ⟨-, hsame⟩
  · by_cases hwho : who = mover
    · subst hwho
      rw [move_self, Role.result?_progress] at hresult
      cases hresult
    · rwa [move_of_ne _ _ _ hwho] at hjoined
  · rwa [← hsame]

theorem Answered.step (h : o.Answered call timeout) (hseated : o.Seated) (hled : o.Led call)
    (hstep : o.Step call timeout o') : o'.Answered call timeout := by
  intro who role slot result hjoined hresult
  have hbefore := hstep.joined_of_result hjoined hresult
  -- Slots are only told more, so it is enough to say what the caller gets of the slot as it was.
  suffices hgets : o.Gets (call who) (timeout who) role slot result from
    hgets.mono (hstep.told_grows slot)
  rcases hstep.result_cases hseated hled hjoined hresult with hsame | hold | hwait | htried
  · rw [hsame] at hresult
    exact h who role slot result hbefore hresult
  · exact h who role slot result hbefore hold
  · cases hhead : (o.told slot).head? with
    | some r =>
        rw [hhead] at hwait
        exact .inl ⟨r, hhead, hwait⟩
    | none =>
        rw [hhead] at hwait
        exact .inr (.inl hwait)
  · exact .inr (.inr htried)

/-! ## Every run -/

variable (call timeout) in
/-- What holds of a gathering after every step. -/
structure Sound (o : Gathering κ) : Prop where
  seated : o.Seated
  led : o.Led call
  attempted : o.Attempted
  answered : o.Answered call timeout

theorem Sound.step (h : o.Sound call timeout) (hstep : o.Step call timeout o') :
    o'.Sound call timeout :=
  ⟨h.seated.step hstep, h.led.step h.seated hstep, h.attempted.step h.led hstep,
    h.answered.step h.seated h.led hstep⟩

theorem Sound.steps (h : o.Sound call timeout)
    (hsteps : Relation.ReflTransGen (Step call timeout) o o') : o'.Sound call timeout := by
  induction hsteps with
  | refl => exact h
  | tail _ hstep ih => exact ih.step hstep

omit [DecidableEq κ] in
theorem sound_start {desk : Desk κ} (hwaiting : desk.gateway.waiting = {})
    (hroll : desk.roll = {}) : ({ desk := desk } : Gathering κ).Sound call timeout := by
  rcases desk with ⟨gateway, roll⟩
  subst hroll
  refine ⟨⟨?_, List.nodup_nil, ?_⟩, ⟨?_, ?_, ?_⟩, ⟨?_, ?_⟩, ?_⟩
  · change gateway.waiting.Keeps ({} : Roll κ)
    rw [show gateway.waiting = {} from hwaiting]
    exact .empty
  · intro who slot
    exact ⟨nofun, nofun⟩
  · exact nofun
  · intro slot hslot
    exact absurd hslot (Nat.not_lt_zero _)
  · exact nofun
  · exact nofun
  · intro slot _
    rfl
  · exact nofun

theorem Reached.sound (h : o.Reached call timeout) : o.Sound call timeout := by
  obtain ⟨desk, hwaiting, hroll, hsteps⟩ := h
  exact (sound_start hwaiting hroll).steps hsteps

end

end Gathering

end KeyedLedger
