import KeyedLedger.Proofs.Bank.Overlap

/-! # What overlapping calls come to

At any time at most one of the commands of callers who share a key is on its way: that of the
leader, which all who wait have in common. What came of it, once the ledger has carried it out, is
what each of them is told.
-/

namespace KeyedLedger

/-! ## What every step preserves -/

namespace Overlap

variable {t : Topics} {key : String} {l : Ledger} {orders : List Order}
  {history : List Instruction}

/-- How far the command of the leader has come. -/
inductive Course (t : Topics) (key : String) (l : Ledger) (orders : List Order)
    (history : List Instruction) (b : Broker Recipient) (c : Command) (calls : List Call)
    (r : Option Resolution) : Prop
  /-- The leader is about to publish it. -/
  | led (requestId : String) (hcalls : calls = [c.call t key requestId]) (hr : r = none)
      (hasked : ∃ order ∈ orders, order.command = .ok c) (hbroker : b.Carries t none)
  /-- It is on its way to the ledger. -/
  | underway (m : Metadata) (p : Posting) (hcalls : calls = []) (hr : r = none)
      (hasked : ∃ order ∈ orders, order.command = .ok c) (hm : m.correlationKey? = some key)
      (hevent : p.event = c.event m) (hbroker : b.Carries t (some (c.topic t, p)))
  /-- It has been carried out, and the outcome is on its way back. -/
  | carriedOut (topic : String) (p : Posting) (requestId : Option String) (time : Timestamp)
      (came : Except LedgerError Result) (hcalls : calls = []) (hr : r = none)
      (hcame : l.Came history c came)
      (hrecords : ∀ v, came = .ok v → (l.after history).Records key v ∧ v.type = c.type)
      (htopic : topic ∈ t.outcomesOf c.type)
      (htells : p.event.Tells c.type key (.ofResult requestId time came))
      (hbroker : b.Carries t (some (topic, p)))
  /-- The outcome is seen by those who wait. -/
  | resolved (requestId : Option String) (time : Timestamp) (came : Except LedgerError Result)
      (hcalls : calls = [])
      (hr : r = some (Gateway.Outcome.ofResult requestId time came).resolution)
      (hcame : l.Came history c came)
      (hlegible : ∀ v, came = .ok v → v.Legible ∧ v.type = c.type) (hbroker : b.Carries t none)

/-- Nobody waits and nothing is on its way, or some wait and the command of a leader has come some
way. The calls are those that are about to be published. -/
inductive Phase (t : Topics) (key : String) (l : Ledger) (orders : List Order)
    (history : List Instruction) (b : Broker Recipient) (w : Waiting) (leader : Option Command)
    (calls : List Call) (n : Nat) : Prop
  | idle (hw : w = {}) (hcalls : calls = []) (hn : n = 0) (hbroker : b.Carries t none)
  | busy (c : Command) (r : Option Resolution) (hleader : leader = some c)
      (hw : w = .only key ⟨r, n⟩) (hcourse : Course t key l orders history b c calls r)

/-- A caller that has a call to make makes that of its order's command, and one that has been
answered has been told so. -/
def Fits (t : Topics) (key : String) (l : Ledger) (history : List Instruction) (c : Caller) :
    Prop :=
  match c.stage with
  | .outside => True
  | .admitted call | .publishing call | .waiting call =>
    ∃ command, c.order.command = .ok command ∧ call = command.call t key c.requestId
  | .answered _ _ => c.Told l key history

/-- The calls that some of the callers are about to publish. -/
def calls (callers : List Caller) : List Call :=
  callers.filterMap fun c => c.stage.publishing?

/-- The number of callers who wait. -/
def waiters (callers : List Caller) : Nat :=
  callers.countP fun c => c.stage.waits

/-- Callers who share a key, after the ledger has gone through a history. -/
structure Sound (t : Topics) (key : String) (l : Ledger) (orders : List Order)
    (history : List Instruction) (o : Overlap) : Prop where
  standing : o.bank.Standing t
  requests : o.callers.map Caller.order = orders
  ledger : o.bank.ledger = l.after history
  asked : ∀ i ∈ history, i.key = key ∧ ∃ order ∈ orders, order.command = .ok i.command
  fits : ∀ c ∈ o.callers, Fits t key l history c
  phase : Phase t key l orders history o.bank.broker o.bank.gateway.waiting o.leader
    (calls o.callers) (waiters o.callers)

variable {s s' : Bank} {leader leader' : Option Command} {before after callers : List Caller}
  {order : Order} {requestId : String} {stage stage' : Stage}

theorem calls_split (before after : List Caller) (order : Order) (requestId : String)
    (stage : Stage) : calls (before ++ ⟨order, requestId, stage⟩ :: after) =
      calls before ++ stage.publishing?.toList ++ calls after := by
  cases stage <;> simp [calls, Stage.publishing?]

theorem waiters_split (before after : List Caller) (order : Order) (requestId : String)
    (stage : Stage) : waiters (before ++ ⟨order, requestId, stage⟩ :: after) =
      waiters before + stage.waits.toNat + waiters after := by
  cases stage <;> simp [waiters, Stage.waits] <;> omega

/-- Only the leader publishes, and it does so before anything is on its way. -/
theorem Course.of_publishing {b : Broker Recipient} {c : Command} {first rest : List Call}
    {call : Call} {r : Option Resolution}
    (h : Course t key l orders history b c (first ++ [call] ++ rest) r) :
    first = [] ∧ rest = [] ∧ r = none ∧ (∃ requestId, call = c.call t key requestId) ∧
      (∃ order ∈ orders, order.command = .ok c) ∧ b.Carries t none := by
  have hsome : first ++ [call] ++ rest ≠ [] := by simp
  rcases h with ⟨requestId, hcalls, hr, hasked, hidle⟩ | ⟨_, _, hcalls⟩ |
    ⟨_, _, _, _, _, hcalls⟩ | ⟨_, _, _, hcalls⟩
  · simp only [List.append_assoc, List.cons_append, List.nil_append, List.append_eq_singleton_iff,
      List.cons_ne_nil, and_false, or_false, List.cons.injEq] at hcalls
    obtain ⟨hfirst, hcall, hrest⟩ := hcalls
    exact ⟨hfirst, hrest, hr, ⟨requestId, hcall⟩, hasked, hidle⟩
  · exact absurd hcalls hsome
  · exact absurd hcalls hsome
  · exact absurd hcalls hsome

/-- What those who wait see is what came of the leader's command. -/
theorem Course.of_resolution {b : Broker Recipient} {c : Command} {calls : List Call}
    {r : Resolution} (h : Course t key l orders history b c calls (some r)) :
    calls = [] ∧ b.Carries t none ∧ ∃ requestId time came,
      r = (Gateway.Outcome.ofResult requestId time came).resolution ∧ l.Came history c came ∧
        ∀ v, came = .ok v → v.Legible ∧ v.type = c.type := by
  rcases h with ⟨_, _, hnone⟩ | ⟨_, _, _, hnone⟩ | ⟨_, _, _, _, _, _, hnone⟩ |
    ⟨requestId, time, came, hcalls, hr, hcame, hlegible, hidle⟩
  · cases hnone
  · cases hnone
  · cases hnone
  · exact ⟨hcalls, hidle, requestId, time, came, Option.some.inj hr, hcame, hlegible⟩

theorem exists_publisher {call : Call} (h : call ∈ calls callers) : ∃ before order requestId after,
    callers = before ++ ⟨order, requestId, .publishing call⟩ :: after := by
  obtain ⟨⟨order, requestId, stage⟩, hmem, hstage⟩ := List.mem_filterMap.mp h
  obtain ⟨before, after, rfl⟩ := List.append_of_mem hmem
  cases stage with
  | publishing other =>
      cases hstage
      exact ⟨before, order, requestId, after, rfl⟩
  | outside => cases hstage
  | admitted other => cases hstage
  | waiting other => cases hstage
  | answered leader result => cases hstage

theorem Fits.append {c : Caller} (h : Fits t key l history c) (i : Instruction) :
    Fits t key l (history ++ [i]) c := by
  rcases c with ⟨order, requestId, _ | _ | _ | _ | ⟨_ | leader, result⟩⟩
  · exact h
  · exact h
  · exact h
  · exact h
  · have hrecalls : order.Recalls (l.after history) key result := h
    change order.Recalls (l.after (history ++ [i])) key result
    rw [l.after_concat]
    exact hrecalls.serve i
  · obtain ⟨came, hcame, hhears⟩ := h
    exact ⟨came, hcame.append i, hhears⟩

theorem Fits.key_eq {call : Call} (h : Fits t key l history ⟨order, requestId, .waiting call⟩) :
    call.key = key := by
  obtain ⟨c, -, hcall⟩ := h
  exact congrArg Call.key hcall

namespace Sound

theorem start (h : s.Ready t) (key : String) (requests : List (Order × String)) :
    Sound t key s.ledger (requests.map Prod.fst) [] (start s requests) where
  standing := h.standing
  requests := by
    rw [Overlap.start, List.map_map]
    rfl
  ledger := rfl
  asked := by simp
  fits := by
    intro c hc
    obtain ⟨request, -, rfl⟩ := List.mem_map.mp hc
    trivial
  phase := by
    refine .idle h.waiting ?_ ?_ h.idle
    · simp [calls, Overlap.start, Stage.publishing?]
    · simp [waiters, Overlap.start, Stage.waits]

/-! ### Steps of a caller -/

section Caller

variable
  (h : Sound t key l orders history ⟨s, leader, before ++ ⟨order, requestId, stage⟩ :: after⟩)

include h

theorem mem_orders : order ∈ orders := by
  rw [← h.requests]
  simp

theorem fits_caller : Fits t key l history ⟨order, requestId, stage⟩ :=
  h.fits _ (by simp)

theorem phase_split : Phase t key l orders history s.broker s.gateway.waiting leader
    (calls before ++ stage.publishing?.toList ++ calls after)
    (waiters before + stage.waits.toNat + waiters after) := by
  have hphase := h.phase
  rwa [calls_split, waiters_split] at hphase

/-- A caller may come further while the ledger stays as it is. -/
theorem replace (hstanding : s'.Standing t) (hbooks : s.SameBooks s')
    (hfits : Fits t key l history ⟨order, requestId, stage'⟩)
    (hphase : Phase t key l orders history s'.broker s'.gateway.waiting leader'
      (calls before ++ stage'.publishing?.toList ++ calls after)
      (waiters before + stage'.waits.toNat + waiters after)) :
    Sound t key l orders history
      ⟨s', leader', before ++ ⟨order, requestId, stage'⟩ :: after⟩ where
  standing := hstanding
  requests := by
    rw [← h.requests]
    simp
  ledger := hbooks.ledger.trans h.ledger
  asked := h.asked
  fits := by
    intro c hc
    rcases List.mem_append.mp hc with hc | hc
    · exact h.fits c (List.mem_append_left _ hc)
    rcases List.mem_cons.mp hc with rfl | hc
    · exact hfits
    · exact h.fits c (List.mem_append_right _ (List.mem_cons_of_mem _ hc))
  phase := by
    rwa [calls_split, waiters_split]

end Caller

variable {call : Call} {result : Except ServiceError Reply}

theorem look_answered
    (h : Sound t key l orders history ⟨s, leader, before ++ ⟨order, requestId, .outside⟩ :: after⟩)
    (hlook : s.look order key requestId = (.answered result, s')) :
    Sound t key l orders history
      ⟨s', leader, before ++ ⟨order, requestId, .answered none result⟩ :: after⟩ := by
  rcases h.standing.look_cases order key requestId with
    ⟨recalled, heq, hrecalls⟩ | ⟨c, s₁, -, heq, -⟩
  · cases hlook.symm.trans heq
    have hledger : s.ledger = l.after history := h.ledger
    have hfits : order.Recalls (l.after history) key result := hledger ▸ hrecalls
    exact h.replace h.standing ⟨rfl, rfl, rfl⟩ hfits h.phase_split
  · cases hlook.symm.trans heq

theorem look_admitted
    (h : Sound t key l orders history ⟨s, leader, before ++ ⟨order, requestId, .outside⟩ :: after⟩)
    (hlook : s.look order key requestId = (.admitted call, s')) :
    Sound t key l orders history
      ⟨s', leader, before ++ ⟨order, requestId, .admitted call⟩ :: after⟩ := by
  rcases h.standing.look_cases order key requestId with
    ⟨recalled, heq, -⟩ | ⟨c, s₁, hc, heq, hstanding, hbooks, hbroker, hwaiting⟩
  · cases hlook.symm.trans heq
  · cases hlook.symm.trans heq
    refine h.replace hstanding hbooks ⟨c, hc, rfl⟩ ?_
    rw [hbroker, hwaiting]
    exact h.phase_split

theorem lead {c : Command}
    (h : Sound t key l orders history
      ⟨s, leader, before ++ ⟨order, requestId, .admitted call⟩ :: after⟩)
    (hc : order.command = .ok c) (hjoin : s.join call = (.publisher, s')) :
    Sound t key l orders history
      ⟨s', some c, before ++ ⟨order, requestId, .publishing call⟩ :: after⟩ := by
  have hfits : Fits t key l history ⟨order, requestId, .publishing call⟩ := h.fits_caller
  have hcall : call = c.call t key requestId := by
    obtain ⟨c', hc', hcall⟩ := hfits
    cases hc.symm.trans hc'
    exact hcall
  have hkey : call.key = key := congrArg Call.key hcall
  obtain ⟨s₁, heq, hstanding, hbooks, hbroker, hwaiting⟩ := h.standing.join hkey
  rcases h.phase_split with ⟨hw, hcalls, hn, hidle⟩ | ⟨c₀, r, -, hw, -⟩ <;>
    dsimp only at heq hwaiting <;> rw [hw] at heq hwaiting
  -- Nobody waits, so the caller is alone and has to publish.
  · cases hjoin.symm.trans heq
    simp only [Stage.publishing?, Stage.waits, Option.toList, List.append_nil,
      List.append_eq_nil_iff, Bool.toNat_false] at hcalls hn
    refine h.replace hstanding hbooks hfits (.busy c none rfl ?_ ?_)
    · have hcount : waiters before + 1 + waiters after = 1 := by omega
      rw [hwaiting, Waiting.join_empty]
      exact congrArg (fun n => Waiting.only key ⟨none, n⟩) hcount.symm
    · refine .led requestId ?_ rfl ⟨order, h.mem_orders, hc⟩ (hbroker ▸ hidle)
      simp [Stage.publishing?, hcalls, hcall]
  · rw [Waiting.join_only] at heq
    cases hjoin.symm.trans heq

theorem attach
    (h : Sound t key l orders history
      ⟨s, leader, before ++ ⟨order, requestId, .admitted call⟩ :: after⟩)
    (hjoin : s.join call = (.attached, s')) :
    Sound t key l orders history
      ⟨s', leader, before ++ ⟨order, requestId, .waiting call⟩ :: after⟩ := by
  have hfits : Fits t key l history ⟨order, requestId, .waiting call⟩ := h.fits_caller
  have hkey : call.key = key := hfits.key_eq
  obtain ⟨s₁, heq, hstanding, hbooks, hbroker, hwaiting⟩ := h.standing.join hkey
  rcases h.phase_split with ⟨hw, -, -, -⟩ | ⟨c, r, hleader, hw, hcourse⟩ <;>
    dsimp only at heq hwaiting <;> rw [hw] at heq hwaiting
  · cases hjoin.symm.trans heq
  · rw [Waiting.join_only] at heq hwaiting
    cases hjoin.symm.trans heq
    refine h.replace hstanding hbooks hfits (.busy c r hleader ?_ (hbroker ▸ hcourse))
    rw [hwaiting]
    simp only [Stage.waits, Bool.toNat_true, Bool.toNat_false, Waiting.only]
    congr 4
    omega

theorem publish
    (h : Sound t key l orders history
      ⟨s, leader, before ++ ⟨order, requestId, .publishing call⟩ :: after⟩)
    (hpublish : s.publishCall call = (.ok (), s')) :
    Sound t key l orders history
      ⟨s', leader, before ++ ⟨order, requestId, .waiting call⟩ :: after⟩ := by
  have hfits : Fits t key l history ⟨order, requestId, .waiting call⟩ := h.fits_caller
  rcases h.phase_split with ⟨-, hcalls, -, -⟩ | ⟨c, r, hleader, hw, hcourse⟩
  · simp [Stage.publishing?] at hcalls
  obtain ⟨hbefore, hafter, rfl, ⟨requestId', rfl⟩, hasked, hidle⟩ := hcourse.of_publishing
  obtain ⟨s₁, p, heq, hstanding, hbooks, hcarries, hevent, hwaiting⟩ :=
    h.standing.publishCall hidle c key requestId'
  cases hpublish.symm.trans heq
  refine h.replace hstanding hbooks hfits (.busy c none hleader (hwaiting.trans hw) ?_)
  refine .underway _ p ?_ rfl hasked rfl hevent hcarries
  simp [Stage.publishing?, hbefore, hafter]

theorem wake {r : Resolution}
    (h : Sound t key l orders history
      ⟨s, leader, before ++ ⟨order, requestId, .waiting call⟩ :: after⟩)
    (hr : s.gateway.waiting.outcome? key = some r)
    (hfinish : s.finish (.waiting order.requestType call) = (result, s')) :
    Sound t key l orders history
      ⟨s', leader, before ++ ⟨order, requestId, .answered leader result⟩ :: after⟩ := by
  have hfits : Fits t key l history ⟨order, requestId, .waiting call⟩ := h.fits_caller
  have hkey : call.key = key := hfits.key_eq
  rcases h.phase_split with ⟨hw, -⟩ | ⟨c, r', hleader, hw, hcourse⟩
  · rw [hw] at hr
    cases hr
  rw [hw, Waiting.outcome?_only] at hr
  obtain rfl : r' = some r := hr
  obtain ⟨hcalls, hidle, requestId', time, came, rfl, hcame, hlegible⟩ := hcourse.of_resolution
  obtain ⟨s₁, heq, hstanding, hbooks, hbroker, hwaiting⟩ :=
    h.standing.finish hkey order.requestType hw
  cases hfinish.symm.trans heq
  have htold : Fits t key l history
      ⟨order, requestId, .answered leader (Result.tell order.requestType came)⟩ := by
    rw [hleader]
    exact ⟨came, hcame, Result.tell_hears order hlegible⟩
  refine h.replace hstanding hbooks htold ?_
  rw [hbroker, hwaiting, hw]
  have hcount : waiters before + 1 + waiters after = waiters before + 0 + waiters after + 1 := by
    omega
  change Phase _ _ _ _ _ _ (Waiting.leave (.only key ⟨_, waiters before + 1 + waiters after⟩) key)
    _ _ (waiters before + 0 + waiters after)
  rw [hcount]
  -- The last to leave takes the slot with it; for the others the outcome stays.
  rcases Nat.eq_zero_or_pos (waiters before + 0 + waiters after) with hlast | hothers
  · rw [hlast]
    exact .idle (Waiting.leave_last _) hcalls rfl hidle
  · exact .busy c _ hleader (Waiting.leave_only _ hothers) hcourse

theorem turn
    (h : Sound t key l orders history ⟨s, leader, before ++ ⟨order, requestId, stage⟩ :: after⟩)
    (hturn : Turn key order requestId (s, leader, stage) (s', leader', stage')) :
    Sound t key l orders history ⟨s', leader', before ++ ⟨order, requestId, stage'⟩ :: after⟩ := by
  cases hturn with
  | answered hlook => exact h.look_answered hlook
  | admitted hlook => exact h.look_admitted hlook
  | lead hc hjoin => exact h.lead hc hjoin
  | attach hjoin => exact h.attach hjoin
  | publish hpublish => exact h.publish hpublish
  | wake hr hfinish => exact h.wake hr hfinish

/-! ### Delivery -/

/-- Only the delivery of a command changes the ledger, which then has carried out one more
instruction. -/
theorem deliver (hdistinct : t.Distinct) (h : Sound t key l orders history ⟨s, leader, callers⟩)
    (hdeliver : s.deliver? = some s') :
    ∃ history', Sound t key l orders history' ⟨s', leader, callers⟩ := by
  have hmessage : ¬ s.broker.Carries t none := by
    intro hidle
    rw [Bank.deliver?_idle hidle] at hdeliver
    cases hdeliver
  have hledger : s.ledger = l.after history := h.ledger
  rcases h.phase with ⟨-, -, -, hidle⟩ | ⟨c, r, hleader, hw, hcourse⟩
  · exact absurd hidle hmessage
  rcases hcourse with ⟨_, _, _, _, hidle⟩ | ⟨m, p, hcalls, rfl, hasked, hm, hevent, hbroker⟩ |
    ⟨topic, p, requestId, time, came, hcalls, rfl, hcame, hrecords, htopic, htells, hbroker⟩ |
    ⟨_, _, _, _, _, _, _, hidle⟩
  · exact absurd hidle hmessage
  -- The command reaches the ledger.
  · obtain ⟨order, horder, hc⟩ := hasked
    obtain ⟨s₁, topic, answer, heq, hstanding, hserved, hgateway, -, hcarries, htopic, htells⟩ :=
      h.standing.deliver_command hdistinct (Order.valid_of_command hc).2 hm hevent hbroker
    cases hdeliver.symm.trans heq
    let i : Instruction := s.instruction c key
    have hafter : (s.ledger.serve i).2 = l.after (history ++ [i]) := by
      rw [l.after_concat, ← hledger]
    have hcame : l.Came (history ++ [i]) c (s.ledger.serve i).1.outcome := by
      rw [hledger]
      exact l.came_last history i
    have hclock : Timestamp.yearInRange i.now.date.year = true := h.standing.clock
    have hrecords : ∀ v, (s.ledger.serve i).1.outcome = .ok v →
        (l.after (history ++ [i])).Records key v ∧ v.type = c.type := by
      rw [← hafter]
      exact fun v hv => Ledger.records_of_outcome h.standing.cents hclock hv
    refine ⟨history ++ [i], hstanding, h.requests, hserved.trans hafter, ?_, ?_, ?_⟩
    · intro j hj
      rcases List.mem_append.mp hj with hj | hj
      · exact h.asked j hj
      · obtain rfl := List.mem_singleton.mp hj
        exact ⟨rfl, order, horder, hc⟩
    · exact fun c hc => (h.fits c hc).append i
    · rw [hgateway]
      exact .busy c none hleader hw (.carriedOut topic answer m.requestId s.now _ hcalls rfl hcame
        hrecords htopic htells hcarries)
  -- The outcome reaches those who wait.
  · have hresult : ∀ v, came = .ok v → s.ledger.Records key v ∧ v.type = c.type := by
      rw [hledger]
      exact hrecords
    obtain ⟨s₁, heq, hstanding, hbooks, hidle, hresolved⟩ :=
      h.standing.deliver_outcome hdistinct htopic htells hresult hbroker hw
    cases hdeliver.symm.trans heq
    have hlegible : ∀ v, came = .ok v → v.Legible ∧ v.type = c.type := fun v hv =>
      ⟨h.standing.written key v (hresult v hv).1, (hresult v hv).2⟩
    exact ⟨history, hstanding, h.requests, hbooks.ledger.trans hledger, h.asked, h.fits,
      .busy c _ hleader hresolved
        (.resolved requestId time came hcalls rfl hcame hlegible hidle)⟩
  · exact absurd hidle hmessage

theorem step (hdistinct : t.Distinct) {o o' : Overlap} (h : Sound t key l orders history o)
    (hstep : o.Step key o') : ∃ history', Sound t key l orders history' o' := by
  cases hstep with
  | caller hturn => exact ⟨history, h.turn hturn⟩
  | deliver hdeliver => exact h.deliver hdistinct hdeliver

theorem advance {o : Overlap} (h : Sound t key l orders history o) {millis : Int}
    (hclock : Timestamp.yearInRange (o.bank.advance millis).now.date.year = true) :
    Sound t key l orders history { o with bank := o.bank.advance millis } where
  standing := { h.standing with clock := hclock }
  requests := h.requests
  ledger := h.ledger
  asked := h.asked
  fits := h.fits
  phase := h.phase

/-! ### No caller is left waiting -/

theorem exists_publish
    (h : Sound t key l orders history
      ⟨s, leader, before ++ ⟨order, requestId, .publishing call⟩ :: after⟩) :
    ∃ o', Step key ⟨s, leader, before ++ ⟨order, requestId, .publishing call⟩ :: after⟩ o' := by
  rcases h.phase_split with ⟨-, hcalls, -, -⟩ | ⟨c, r, -, -, hcourse⟩
  · simp [Stage.publishing?] at hcalls
  obtain ⟨-, -, -, ⟨requestId', rfl⟩, -, hidle⟩ := hcourse.of_publishing
  obtain ⟨s', p, hpublish, -⟩ := h.standing.publishCall hidle c key requestId'
  exact ⟨_, .caller (.publish hpublish)⟩

/-- While a caller waits, the command of the leader comes further, or the caller leaves. -/
theorem exists_step_of_waiting (hdistinct : t.Distinct)
    (h : Sound t key l orders history
      ⟨s, leader, before ++ ⟨order, requestId, .waiting call⟩ :: after⟩) :
    ∃ o', Step key ⟨s, leader, before ++ ⟨order, requestId, .waiting call⟩ :: after⟩ o' := by
  rcases h.phase_split with ⟨-, -, hn, -⟩ | ⟨c, r, -, hw, hcourse⟩
  · simp [Stage.waits] at hn
  rw [← calls_split before after order requestId] at hcourse
  rcases hcourse with ⟨requestId', hcalls, -⟩ | ⟨m, p, -, -, -, -, -, hbroker⟩ |
    ⟨topic, p, _, _, _, -, -, -, -, htopic, -, hbroker⟩ | ⟨_, _, _, -, hr, -⟩
  -- The leader is another caller, who can still publish.
  · have hmem : c.call t key requestId' ∈
        calls (before ++ ⟨order, requestId, .waiting call⟩ :: after) := by
      rw [hcalls]
      exact List.mem_singleton_self _
    obtain ⟨_, _, _, _, hcallers⟩ := exists_publisher hmem
    rw [hcallers] at h ⊢
    exact h.exists_publish
  · obtain ⟨s', hdeliver⟩ := Bank.exists_deliver hdistinct hbroker (c.topic_mem_heardBy t)
    exact ⟨_, .deliver hdeliver⟩
  · obtain ⟨s', hdeliver⟩ := Bank.exists_deliver hdistinct hbroker
      (show topic ∈ t.heardBy (.outcomes c.type) from htopic)
    exact ⟨_, .deliver hdeliver⟩
  · have hseen : s.gateway.waiting.outcome? key = r := by
      rw [hw, Waiting.outcome?_only]
    exact ⟨_, .caller (.wake (hseen.trans hr) rfl)⟩

/-- As long as a caller has not been answered, there is a step that can be taken. -/
theorem exists_step (hdistinct : t.Distinct) {o : Overlap} (h : Sound t key l orders history o)
    {c : Caller} (hc : c ∈ o.callers) (hopen : c.stage.isAnswered = false) :
    ∃ o', o.Step key o' := by
  rcases o with ⟨s, leader, callers⟩
  obtain ⟨before, after, rfl⟩ : ∃ before after, callers = before ++ c :: after :=
    List.append_of_mem hc
  rcases c with ⟨order, requestId, _ | call | call | call | _⟩
  · rcases h.standing.look_cases order key requestId with
      ⟨result, hlook, -⟩ | ⟨c, s', -, hlook, -⟩
    · exact ⟨_, .caller (.answered hlook)⟩
    · exact ⟨_, .caller (.admitted hlook)⟩
  · obtain ⟨c, hc, hcall⟩ : ∃ c, order.command = .ok c ∧ call = c.call t key requestId :=
      h.fits_caller
    obtain ⟨s', hjoin, -⟩ := h.standing.join (congrArg Call.key hcall)
    cases hrole : (s.gateway.waiting.join (c.call t key requestId).key).1 with
    | publisher => exact ⟨_, .caller (.lead hc (hjoin.trans (by rw [hrole])))⟩
    | attached => exact ⟨_, .caller (.attach (hjoin.trans (by rw [hrole])))⟩
  · exact h.exists_publish
  · exact h.exists_step_of_waiting hdistinct
  · cases hopen

end Sound

/-! ## What callers are told in the end -/

theorem Reached.sound (hdistinct : t.Distinct) (hready : s.Ready t)
    {requests : List (Order × String)} {o : Overlap} (h : Reached key s requests o) :
    ∃ history, Sound t key s.ledger (requests.map Prod.fst) history o := by
  induction h with
  | start => exact ⟨[], Sound.start hready key requests⟩
  | step _ hstep ih =>
      obtain ⟨history, hsound⟩ := ih
      exact hsound.step hdistinct hstep
  | pass _ millis hclock ih =>
      obtain ⟨history, hsound⟩ := ih
      exact ⟨history, hsound.advance hclock⟩

/-- However the steps of callers who share a key follow each other, the ledger carries out some of
their commands under that key. Each caller who has been answered was told a value from memory, or
what came of the command of a leader, and as long as there is another caller a step can be taken.
What came of the leader's command is heard by callers of both types: one of the other type is told
an error that was not meant for it, or cannot read its answer. -/
theorem Reached.callers_told (hdistinct : t.Distinct) (hready : s.Ready t)
    {requests : List (Order × String)} {o : Overlap} (h : Reached key s requests o) :
    ∃ history, o.bank.ledger = s.ledger.after history ∧
      (∀ i ∈ history, i.key = key ∧
        ∃ order ∈ requests.map Prod.fst, order.command = .ok i.command) ∧
      (∀ c ∈ o.callers, c.Told s.ledger key history) ∧
      ((∃ c ∈ o.callers, c.stage.isAnswered = false) → ∃ o', o.Step key o') := by
  obtain ⟨history, hsound⟩ := h.sound hdistinct hready
  refine ⟨history, hsound.ledger, hsound.asked, fun c hc => ?_, ?_⟩
  · have hfits := hsound.fits c hc
    rcases c with ⟨order, requestId, _ | _ | _ | _ | _⟩
    · trivial
    · trivial
    · trivial
    · trivial
    · exact hfits
  · rintro ⟨c, hc, hopen⟩
    exact hsound.exists_step hdistinct hc hopen

/-! ## Crossed calls -/

section Crossed

variable {first second : Order} {c c' : Command} {r r' : String}

/-- Two callers at a bank. -/
def pair (s : Bank) (leader : Option Command) (first second : Caller) : Overlap :=
  ⟨s, leader, [first, second]⟩

theorem step_first (other : Caller)
    (h : Turn key first r (s, leader, stage) (s', leader', stage')) :
    Step key (pair s leader ⟨first, r, stage⟩ other) (pair s' leader' ⟨first, r, stage'⟩ other) :=
  @Step.caller key _ _ _ _ [] [other] _ _ _ _ h

theorem step_second (other : Caller)
    (h : Turn key second r (s, leader, stage) (s', leader', stage')) :
    Step key (pair s leader other ⟨second, r, stage⟩) (pair s' leader' other ⟨second, r, stage'⟩) :=
  @Step.caller key _ _ _ _ [other] [] _ _ _ _ h

/-- Both callers can join before the command of the first is published. -/
theorem exists_joined (hready : s.Ready t) (hc : first.command = .ok c)
    (hc' : second.command = .ok c') (hnew : ∀ v, ¬ s.ledger.Records key v) (r r' : String) :
    ∃ s', Reached key s [(first, r), (second, r')] (pair s' (some c)
        ⟨first, r, .publishing (c.call t key r)⟩ ⟨second, r', .waiting (c'.call t key r')⟩) ∧
      s'.Standing t ∧ s.SameBooks s' ∧ s'.broker.Carries t none ∧
      s'.gateway.waiting = .only key ⟨none, 2⟩ := by
  have hstart : Reached key s [(first, r), (second, r')]
      (pair s none ⟨first, r, .outside⟩ ⟨second, r', .outside⟩) := .start
  obtain ⟨s₁, hlook, hstanding, hbooks₁, hbroker₁, hwaiting₁⟩ :=
    hready.standing.look_new hc hnew r
  have hadmitted := hstart.step (step_first _ (.admitted hlook))
  have hnew₁ : ∀ v, ¬ s₁.ledger.Records key v := by
    rw [hbooks₁.ledger]
    exact hnew
  obtain ⟨s₂, hlook, hstanding, hbooks₂, hbroker₂, hwaiting₂⟩ := hstanding.look_new hc' hnew₁ r'
  have hadmitted := hadmitted.step (step_second _ (.admitted hlook))
  obtain ⟨s₃, hjoin, hstanding, hbooks₃, hbroker₃, hwaiting₃⟩ :=
    hstanding.join (c.key_call t key r)
  rw [hwaiting₂, hwaiting₁, hready.waiting, Waiting.join_empty] at hjoin hwaiting₃
  have hled := hadmitted.step (step_first _ (.lead hc hjoin))
  obtain ⟨s₄, hjoin, hstanding, hbooks₄, hbroker₄, hwaiting₄⟩ :=
    hstanding.join (c'.key_call t key r')
  rw [hwaiting₃, Waiting.join_only] at hjoin hwaiting₄
  have hidle : s₄.broker.Carries t none := by
    rw [hbroker₄, hbroker₃, hbroker₂, hbroker₁]
    exact hready.idle
  exact ⟨s₄, hled.step (step_second _ (.attach hjoin)), hstanding,
    ((hbooks₁.trans hbooks₂).trans hbooks₃).trans hbooks₄, hidle, hwaiting₄⟩

/-- Of two callers under a new key, the second can be told what came of the command of the first,
whatever the types of their orders are. -/
theorem exists_crossed (hdistinct : t.Distinct) (hready : s.Ready t)
    (hc : first.command = .ok c) (hc' : second.command = .ok c')
    (hnew : ∀ v, ¬ s.ledger.Records key v) (r r' : String) :
    ∃ o result, Reached key s [(first, r), (second, r')] o ∧
      ⟨second, r', .answered (some c) result⟩ ∈ o.callers ∧
      second.Hears c.type (s.ledger.serve (s.instruction c key)).1.outcome result := by
  obtain ⟨s₁, hjoined, hstanding, hbooks₁, hidle, hwaiting₁⟩ :=
    exists_joined hready hc hc' hnew r r'
  obtain ⟨s₂, p, hpublish, hstanding, hbooks₂, hcarries, hevent, hwaiting₂⟩ :=
    hstanding.publishCall hidle c key r
  have hpublished := hjoined.step (step_first _ (.publish hpublish))
  obtain ⟨s₃, topic, answer, hdeliver, hserved, hledger, hgateway, -, hcarries, htopic, htells⟩ :=
    hstanding.deliver_command hdistinct (Order.valid_of_command hc).2 rfl hevent hcarries
  have hdelivered := hpublished.step (.deliver hdeliver)
  have hresult : ∀ v, (s₂.ledger.serve (s₂.instruction c key)).1.outcome = .ok v →
      s₃.ledger.Records key v ∧ v.type = c.type := by
    rw [hledger]
    exact fun v hv => Ledger.records_of_outcome hstanding.cents hstanding.clock hv
  rw [← hgateway, hwaiting₁] at hwaiting₂
  obtain ⟨s₄, hdeliver, hstanding₄, -, -, hwaiting₄⟩ :=
    hserved.deliver_outcome hdistinct htopic htells hresult hcarries hwaiting₂
  have hresolved := hdelivered.step (.deliver hdeliver)
  obtain ⟨s₅, hfinish, -⟩ :=
    hstanding₄.finish (c'.key_call t key r') second.requestType hwaiting₄
  have hseen := congrArg (fun w => Waiting.outcome? w key) hwaiting₄
  rw [Waiting.outcome?_only] at hseen
  have htold := hresolved.step (step_second _ (.wake hseen hfinish))
  have hlegible : ∀ v, (s₂.ledger.serve (s₂.instruction c key)).1.outcome = .ok v →
      v.Legible ∧ v.type = c.type := fun v hv => hstanding.of_outcome hv
  have hhears := Result.tell_hears second hlegible
  refine ⟨_, _, htold, List.mem_cons_of_mem _ List.mem_cons_self, ?_⟩
  have hbooks := hbooks₁.trans hbooks₂
  rwa [hbooks.ledger, hbooks.instruction] at hhears ⊢

end Crossed

end Overlap

namespace Sample

theorem command_fillOrder : ∃ c, fillOrder.command = .ok c :=
  ⟨_, rfl⟩

theorem outcome_accountCommand : ∃ a,
    (emptyBank.ledger.serve (emptyBank.instruction accountCommand "shared")).1.outcome =
      .ok (.opened a) :=
  ⟨_, rfl⟩

theorem callers_told_crossed : ∃ o history result,
    Overlap.Reached "shared" emptyBank [(accountOrder, "req-1"), (fillOrder, "req-2")] o ∧
      ⟨fillOrder, "req-2", .answered (some accountCommand) result⟩ ∈ o.callers ∧
      Caller.Told emptyBank.ledger "shared" history
        ⟨fillOrder, "req-2", .answered (some accountCommand) result⟩ ∧
      ∃ e : ServiceError, result = .error e ∧ e.isRetryable = true := by
  have hready : emptyBank.Ready {} := reached_emptyBank.ready (by decide)
  obtain ⟨c, hc⟩ := command_fillOrder
  obtain ⟨o, result, hreached, hmem, hhears⟩ := Overlap.exists_crossed (by decide) hready
    command_accountOrder hc (Ledger.not_records_empty "shared") "req-1" "req-2"
  obtain ⟨history, -, -, htold, -⟩ := Overlap.Reached.callers_told (by decide) hready hreached
  obtain ⟨a, ha⟩ := outcome_accountCommand
  rw [ha] at hhears
  obtain ⟨fault, hfault⟩ : ∃ fault : Fault,
      result = .error (.internal s!"unreadable outcome: {fault.message}") := hhears
  exact ⟨o, history, result, hreached, hmem, htold _ hmem, _, hfault, rfl⟩

end Sample

end KeyedLedger
