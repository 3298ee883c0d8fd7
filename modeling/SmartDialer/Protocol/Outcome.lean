import SmartDialer.Protocol.Lifecycle
import SmartDialer.Protocol.Undisturbed

/-!
# The borrower's outcome

When a call is COMPLETED its borrower has been contacted, or is to be tried again, and
which of the two is read from `answered_at`. Only the step to ANSWERED sets it, and the
rank guard lets an event skip that step. So what a sequence of deliveries makes of the
borrower is a small machine over the call states the events stand for: `outcome`. The
event processor refines it, and the machine can be read off: it comes to a contact exactly
when the first of the events that say there was an answer is the one that says ANSWERED.
-/

namespace SmartDialer

open Store Conc

/-! ## The machine -/

/--
What becomes of the borrower of a call in state `st`: nothing as long as the call is live,
and then whether it was a contact. `answered` says whether `answered_at` is set.
-/
def outcome (st : CallState) (answered : Bool) : List CallState → Option Bool
  | [] => none
  | t :: ts =>
      if rank t ≤ rank st then outcome st answered ts
      else if isTerminal t then some (t == .completed && answered)
      else outcome t (answered || t == .answered) ts

/-- The first event that says there was an answer is the one that says ANSWERED. -/
def TellsAnswer (st : CallState) (answered : Bool) (ts : List CallState) : Prop :=
  .completed ∈ ts ∧ (answered = true ∨ rank st < rank .answered
    ∧ ts.find? (fun t => decide (rank .answered ≤ rank t)) = some .answered)

instance (st : CallState) (answered : Bool) (ts : List CallState) :
    Decidable (TellsAnswer st answered ts) :=
  inferInstanceAs (Decidable (_ ∧ _))

/-- What the machine comes to, when no call ends but by being COMPLETED. -/
theorem outcome_iff_tellsAnswer {ts : List CallState}
    (hts : ∀ t ∈ ts, isTerminal t = true → t = .completed) {st : CallState}
    (hst : isTerminal st = false) (answered : Bool) :
    outcome st answered ts = some true ↔ TellsAnswer st answered ts := by
  induction ts generalizing st answered with
  | nil => simp [outcome, TellsAnswer]
  | cons t ts ih =>
      have hrest := fun t ht => hts t (List.mem_cons_of_mem _ ht)
      have hlive := (isTerminal_eq_false_iff_rank st).mp hst
      rw [outcome, TellsAnswer]
      by_cases hstale : rank t ≤ rank st
      · -- a stale event is neither the end nor, while it matters, the first of its kind
        have hne : t ≠ .completed := by
          rintro rfl
          have : rank .completed = 6 := rfl
          omega
        have hfind : rank st < rank .answered →
            (t :: ts).find? (fun t => decide (rank .answered ≤ rank t))
              = ts.find? (fun t => decide (rank .answered ≤ rank t)) := by
          intro hlt
          refine List.find?_cons_of_neg ?_
          have : ¬rank .answered ≤ rank t := by omega
          simpa using this
        rw [if_pos hstale, ih hrest hst, TellsAnswer, List.mem_cons, or_iff_right hne.symm]
        refine and_congr_right fun _ => or_congr_right (and_congr_right fun hlt => ?_)
        rw [hfind hlt]
      · rw [if_neg hstale]
        by_cases hterm : isTerminal t = true
        · obtain rfl := hts t List.mem_cons_self hterm
          rw [if_pos hterm]
          simp [rank, callStateRank]
        · have hnext : isTerminal t = false := by simpa using hterm
          rw [if_neg hterm, ih hrest hnext, TellsAnswer]
          revert hstale hnext hst
          cases t <;> cases st <;> simp [rank, callStateRank, isTerminal, terminalCallStates]

/-! ## Deliveries -/

/-- The events recorded so far. -/
def recorded (s : State) : List (String × String) := s.events.docs.map key

/-- The states that events not seen before stand for, each event counted once. -/
def heard (seen : List (String × String)) : List ProviderEvent → List CallState
  | [] => []
  | e :: es =>
      if (e.providerName, e.providerEventId) ∈ seen then heard seen es
      else (eventTypeToCallState e.eventType).toList
        ++ heard (seen ++ [(e.providerName, e.providerEventId)]) es

/-- The events are processed one at a time, by one process. -/
def processAll (cfg : Settings) (i : Nat) (env : Nat → Choice) :
    List ProviderEvent → State × Nat → State × Nat
  | [], x => x
  | e :: es, x =>
      processAll cfg i env es ((EventProcessor.processEvent cfg e).eval (solo i env) x).2

/-- An attached call that is live, and whose borrower is RESERVED for it. -/
structure OnTheLine (providerName providerCallId : String) (s : State) (d : Call)
    (b : Borrower) : Prop where
  found : CallRepository.findByProviderCallId providerName providerCallId s.calls = some d
  wellFormed : d.WellFormed
  live : isTerminal d.state = false
  borrower : s.borrowers.get d.borrowerId = some b
  reserved : b.status = .reserved
  worker : b.reservedBy = some d.createdByWorker

/-- The call is over, and this is what became of the borrower. -/
structure HungUp (providerName providerCallId : String) (s : State) (borrowerId : String)
    (b : Borrower) : Prop where
  ended : ∃ d, CallRepository.findByProviderCallId providerName providerCallId s.calls = some d
    ∧ isTerminal d.state = true
  borrower : s.borrowers.get borrowerId = some b

/-- An event about the call. -/
def ProviderEvent.About (providerName providerCallId : String) (e : ProviderEvent) : Prop :=
  e.providerName = providerName ∧ e.providerCallId = providerCallId

/-! ## One event -/

section

variable {cfg : Settings} {i : Nat} {providerName providerCallId : String}

/-- The calls, the borrowers and the events recorded are these. -/
def Holding (calls : Collection Call) (borrowers : Collection Borrower)
    (seen : List (String × String)) : Assertion Unit :=
  fun s => s.1.calls = calls ∧ s.1.borrowers = borrowers ∧ recorded s.1 = seen

/-- An operation that neither writes to calls and borrowers nor records an event. -/
def Op.Aside : Op → Prop
  | .findAgentById _ | .releaseAgent .. | .transitionAgent .. | .markProcessed .. => True
  | _ => False

variable {calls : Collection Call} {borrowers : Collection Borrower}
  {seen : List (String × String)}

theorem finish_total (event : ProviderEvent) (status : EventProcessingStatus)
    (appliedTransition : Option String) :
    (EventProcessor.finish event status appliedTransition).Total Op.Aside :=
  Prog.total_bind (Prog.total_perform trivial) fun _ => trivial

/-- The agent is moved or released, or the table refuses, and that is no failure. -/
theorem applyAgentTransition_total (call : Call) (targetState : CallState) :
    (EventProcessor.applyAgentTransition call targetState).Total Op.Aside := by
  rw [EventProcessor.applyAgentTransition]
  split
  · trivial
  · refine Prog.total_bind (Prog.total_perform trivial) fun found => ?_
    cases found with
    | none => trivial
    | some agent =>
        dsimp only
        split
        · trivial
        · split
          · rw [Agents.releaseAgent]
            split
            · trivial
            · exact Prog.total_bind (Prog.total_perform trivial) fun _ => trivial
          · rw [Agents.transitionAgent]
            split
            · trivial
            · exact Prog.total_tryCatch
                (Prog.total_bind (Prog.total_perform trivial) fun _ => trivial)

theorem wp_aside_total {α : Type} {p : Async α} (hp : p.Total Op.Aside) {s : State × Unit}
    (hs : Holding calls borrowers seen s) :
    (secluded cfg i).wp i p (Finishes fun _ => Holding calls borrowers seen) s := by
  refine wp_total_finishes hp (Logic.stable_alone _) (fun o ho => ?_) hs
  refine Logic.atomic_alone fun s c hs hc => ?_
  change Finishes _ (exec i o c s).1 ((exec i o c s).2, ())
  rw [exec_faultless hc]
  cases o with
  | markProcessed providerName providerEventId status appliedTransition =>
      exact ⟨hs.1, hs.2.1, (Collection.keys_update ..).trans hs.2.2⟩
  | findAgentById _ => exact hs
  | releaseAgent _ _ _ _ _ => exact hs
  | transitionAgent _ _ _ _ => exact hs
  | _ => exact ho.elim

theorem wp_finish (event : ProviderEvent) (status : EventProcessingStatus)
    (appliedTransition : Option String) {s : State × Unit}
    (hs : Holding calls borrowers seen s) :
    (secluded cfg i).wp i (EventProcessor.finish event status appliedTransition)
      (Finishes fun _ => Holding calls borrowers seen) s :=
  wp_aside_total (finish_total ..) hs

/-- The write of the step to `t`. -/
def stepTo (now : Time) (event : ProviderEvent) (d : Call) (t : CallState) : Write Call :=
  ⟨d.id, CallRepository.advanceable t,
    CallRepository.advance now t (EventProcessor.failureReason event t)⟩

/-- The write of the release when the call has ended in `t`. -/
def releaseAfter (cfg : Settings) (now : Time) (d : Call) (t : CallState) : Write Borrower :=
  ⟨d.borrowerId, BorrowerRepository.releasable d.createdByWorker,
    BorrowerRepository.release now (outcomeForTerminalCall (t == .completed && d.answeredAt.isSome))
      cfg.maxCallAttempts cfg.retryBackoffBaseSeconds⟩

/-- A step that is legal for the call as it is. -/
theorem wp_applyTransition (event : ProviderEvent) {d : Call} {t : CallState} {s : State × Unit}
    (hd : calls.get d.id = some d) (hp : CallRepository.advanceable t d = true)
    (hs : Holding calls borrowers seen s) :
    (secluded cfg i).wp i (EventProcessor.applyTransition cfg event d t)
      (Finishes fun _ s' => ∃ now now', Holding (calls.write (stepTo now event d t))
        (if isTerminal t then borrowers.write
          (releaseAfter cfg now' ((stepTo now event d t).update.apply d) t) else borrowers)
        seen s') s := by
  have hmove : (secluded cfg i).wp i
      (await (.transitionCall d.id t (EventProcessor.failureReason event t)))
      (Finishes fun answer s' => ∃ now, answer = some ((stepTo now event d t).update.apply d)
        ∧ Holding (calls.write (stepTo now event d t)) borrowers seen s') s := by
    refine wp_effect fun c => ⟨_, rfl, c.now, ?_, ?_, hs.2⟩
    · rw [CallRepository.transitionCall, hs.1, Collection.findOneAndUpdate, hd,
        Option.filter_some, if_pos hp]
      rfl
    · rw [← hs.1]
      rfl
  refine wp_bind_finishes hmove fun answer s₁ hs₁ => ?_
  obtain ⟨now, rfl, hs₁⟩ := hs₁
  refine wp_bind_finishes (wp_aside_total (applyAgentTransition_total _ t) hs₁) fun _ s₂ hs₂ => ?_
  -- the states that release the agent are those that end the call
  have hstates : agentReleasingCallStates.contains t = isTerminal t := by
    cases t <;> rfl
  rw [hstates]
  by_cases hterm : isTerminal t = true
  · have hrelease : (secluded cfg i).wp i
        (EventProcessor.releaseBorrower cfg ((stepTo now event d t).update.apply d) t)
        (Finishes fun _ s' => ∃ now', Holding (calls.write (stepTo now event d t))
          (borrowers.write (releaseAfter cfg now' ((stepTo now event d t).update.apply d) t))
          seen s') s₂ := by
      refine wp_bind_finishes (L := secluded cfg i) (f := fun _ s' => ∃ now',
        Holding (calls.write (stepTo now event d t)) (borrowers.write
          (releaseAfter cfg now' ((stepTo now event d t).update.apply d) t)) seen s')
        (wp_effect fun c => ⟨_, rfl, c.now, hs₂.1, ?_, hs₂.2.2⟩) fun _ _ hs₃ => hs₃
      rw [← hs₂.2.1]
      rfl
    rw [if_pos hterm]
    refine wp_bind_finishes hrelease fun _ s₃ hs₃ => ?_
    obtain ⟨now', hs₃⟩ := hs₃
    refine finishes_mono (wp_finish _ _ _ hs₃) fun _ s₄ hs₄ => ⟨now, now', ?_⟩
    rw [if_pos hterm]
    exact hs₄
  · rw [if_neg hterm]
    refine finishes_mono (wp_finish _ _ _ hs₂) fun _ s₃ hs₃ => ⟨now, now, ?_⟩
    rw [if_neg hterm]
    exact hs₃

/-- The look-up finds the call. -/
theorem wp_findByProviderCallId {event : ProviderEvent} {d : Call} {s : State × Unit}
    (he : event.About providerName providerCallId)
    (hfound : CallRepository.findByProviderCallId providerName providerCallId calls = some d)
    (hs : Holding calls borrowers seen s) :
    (secluded cfg i).wp i
      (await (.findByProviderCallId event.providerName event.providerCallId))
      (Finishes fun answer s' => answer = some d ∧ Holding calls borrowers seen s') s := by
  refine wp_effect fun c => ⟨_, rfl, ?_, hs⟩
  rw [he.1, he.2, hs.1]
  exact hfound

/-- An event about a call that is not to be applied to it. -/
theorem wp_applyEvent_ignored {event : ProviderEvent} {d : Call} {s : State × Unit}
    (he : event.About providerName providerCallId)
    (hfound : CallRepository.findByProviderCallId providerName providerCallId calls = some d)
    (happly : ∀ t, eventTypeToCallState event.eventType = some t →
      shouldApplyEvent d.state t ≠ .apply) (hs : Holding calls borrowers seen s) :
    (secluded cfg i).wp i (EventProcessor.applyEvent cfg event)
      (Finishes fun _ => Holding calls borrowers seen) s := by
  refine wp_bind_finishes (wp_findByProviderCallId he hfound hs) fun found s₁ hs₁ => ?_
  obtain ⟨rfl, hs₁⟩ := hs₁
  dsimp only
  split
  · exact wp_finish _ _ _ hs₁
  · rename_i t ht
    split
    · rename_i heq
      exact absurd heq (happly t ht)
    · exact wp_finish _ _ _ hs₁

theorem wp_applyEvent_applied {event : ProviderEvent} {d : Call} {t : CallState} {s : State × Unit}
    {B : Assertion Unit} (he : event.About providerName providerCallId)
    (hfound : CallRepository.findByProviderCallId providerName providerCallId calls = some d)
    (ht : eventTypeToCallState event.eventType = some t)
    (happly : shouldApplyEvent d.state t = .apply) (hs : Holding calls borrowers seen s)
    (hB : ∀ s₁, Holding calls borrowers seen s₁ → (secluded cfg i).wp i
      (EventProcessor.applyTransition cfg event d t) (Finishes fun _ => B) s₁) :
    (secluded cfg i).wp i (EventProcessor.applyEvent cfg event) (Finishes fun _ => B) s := by
  refine wp_bind_finishes (wp_findByProviderCallId he hfound hs) fun found s₁ hs₁ => ?_
  obtain ⟨rfl, hs₁⟩ := hs₁
  dsimp only
  rw [ht]
  dsimp only
  rw [happly]
  exact hB s₁ hs₁

/-- The event is recorded first, or it was before, and is left at that. -/
theorem wp_processEvent {event : ProviderEvent} {s : State × Unit} {B : Assertion Unit}
    (hdup : (event.providerName, event.providerEventId) ∈ seen →
      ∀ s₁, Holding calls borrowers seen s₁ → B s₁)
    (hnew : (event.providerName, event.providerEventId) ∉ seen →
      ∀ s₁, Holding calls borrowers
        (seen ++ [(event.providerName, event.providerEventId)]) s₁ →
      (secluded cfg i).wp i (EventProcessor.applyEvent cfg event) (Finishes fun _ => B) s₁)
    (hs : Holding calls borrowers seen s) :
    (secluded cfg i).wp i (EventProcessor.processEvent cfg event) (Finishes fun _ => B) s := by
  obtain ⟨hcalls, hborrowers, rfl⟩ := hs
  have hrecord : (secluded cfg i).wp i (await (.recordEvent event))
      (Finishes fun answer s' => if (event.providerName, event.providerEventId) ∈ recorded s.1
        then answer = .duplicate ∧ Holding calls borrowers (recorded s.1) s'
        else answer = .recorded ∧ Holding calls borrowers
          (recorded s.1 ++ [(event.providerName, event.providerEventId)]) s') s := by
    refine wp_effect fun c => ⟨_, rfl, ?_⟩
    -- the insertion is the duplicate gate
    by_cases hseen : (event.providerName, event.providerEventId) ∈ recorded s.1
    · have hdup : EventRepository.recordEvent c.now event s.1.events
          = (.duplicate, s.1.events) := by
        rw [EventRepository.recordEvent, Collection.insert_of_mem hseen]
      simp only [effect, State.onEvents, hdup]
      rw [if_pos hseen]
      exact ⟨trivial, hcalls, hborrowers, rfl⟩
    · obtain ⟨events, hins, hkeys⟩ :=
        Collection.insert_of_not_mem (d := EventRepository.toDocument c.now event) hseen
      have hnew : EventRepository.recordEvent c.now event s.1.events = (.recorded, events) := by
        rw [EventRepository.recordEvent, hins]
      simp only [effect, State.onEvents, hnew]
      rw [if_neg hseen]
      exact ⟨trivial, hcalls, hborrowers, hkeys⟩
  refine wp_bind_finishes hrecord fun answer s₁ hs₁ => ?_
  by_cases hseen : (event.providerName, event.providerEventId) ∈ recorded s.1
  · rw [if_pos hseen] at hs₁
    obtain ⟨rfl, hs₁⟩ := hs₁
    exact hdup hseen s₁ hs₁
  · rw [if_neg hseen] at hs₁
    obtain ⟨rfl, hs₁⟩ := hs₁
    exact wp_tryCatch_finishes (hnew hseen s₁ hs₁)

/-- What one event makes of a live call and its borrower. -/
inductive After (event : ProviderEvent) (s : State) (d : Call) (b : Borrower) (s' : State) : Prop
  | duplicate (hseen : (event.providerName, event.providerEventId) ∈ recorded s)
      (hrec : recorded s' = recorded s) (hline : OnTheLine providerName providerCallId s' d b)
  | ignored (hseen : (event.providerName, event.providerEventId) ∉ recorded s)
      (hrec : recorded s' = recorded s ++ [(event.providerName, event.providerEventId)])
      (hstale : ∀ t, eventTypeToCallState event.eventType = some t → rank t ≤ rank d.state)
      (hline : OnTheLine providerName providerCallId s' d b)
  | moved (t : CallState) (d' : Call)
      (hseen : (event.providerName, event.providerEventId) ∉ recorded s)
      (hrec : recorded s' = recorded s ++ [(event.providerName, event.providerEventId)])
      (ht : eventTypeToCallState event.eventType = some t) (hrank : rank d.state < rank t)
      (hlive : isTerminal t = false) (hline : OnTheLine providerName providerCallId s' d' b)
      (hstate : d'.state = t) (hborrower : d'.borrowerId = d.borrowerId)
      (hanswered : d'.answeredAt.isSome = (d.answeredAt.isSome || t == .answered))
  | ended (t : CallState) (b' : Borrower)
      (hseen : (event.providerName, event.providerEventId) ∉ recorded s)
      (hrec : recorded s' = recorded s ++ [(event.providerName, event.providerEventId)])
      (ht : eventTypeToCallState event.eventType = some t) (hrank : rank d.state < rank t)
      (hterm : isTerminal t = true)
      (hover : HungUp providerName providerCallId s' d.borrowerId b')
      (hcount : b'.attemptCount = b.attemptCount + 1)
      (hcontact : b'.status = .contacted ↔ (t == .completed && d.answeredAt.isSome) = true)

theorem OnTheLine.of_holding {s : State} {s' : State × Unit} {d : Call} {b : Borrower}
    (h : OnTheLine providerName providerCallId s d b)
    (hs : Holding s.calls s.borrowers seen s') :
    OnTheLine providerName providerCallId s'.1 d b := by
  obtain ⟨hcalls, hborrowers, -⟩ := hs
  exact ⟨hcalls ▸ h.found, h.wellFormed, h.live, hborrowers ▸ h.borrower, h.reserved, h.worker⟩

/-- The look-up still finds the call, as the step left it. -/
theorem find_stepTo {d : Call} {t : CallState}
    (hfound : CallRepository.findByProviderCallId providerName providerCallId calls = some d)
    (hp : CallRepository.advanceable t d = true) (now : Time) (event : ProviderEvent) :
    CallRepository.findByProviderCallId providerName providerCallId
      (calls.write (stepTo now event d t)) = some ((stepTo now event d t).update.apply d) := by
  rw [CallRepository.findByProviderCallId, Collection.write, Collection.findOne_update]
  · rw [show calls.findOne _ = some d from hfound, Option.map_some, if_pos ⟨rfl, hp⟩]
  · exact fun _ => rfl

/-- How a release when the call has ended leaves the borrower. -/
theorem release_outcome (cfg : Settings) (now : Time) (answered : Bool) (b : Borrower) :
    ((BorrowerRepository.release now (outcomeForTerminalCall answered) cfg.maxCallAttempts
        cfg.retryBackoffBaseSeconds).apply b).attemptCount = b.attemptCount + 1
      ∧ (((BorrowerRepository.release now (outcomeForTerminalCall answered) cfg.maxCallAttempts
        cfg.retryBackoffBaseSeconds).apply b).status = .contacted ↔ answered = true) := by
  cases answered with
  | true => exact ⟨rfl, iff_of_true rfl rfl⟩
  | false =>
      refine ⟨rfl, iff_of_false ?_ (fun h => by cases h)⟩
      simp only [outcomeForTerminalCall, BorrowerRepository.release,
        BorrowerRepository.buildRetryUpdate, Bool.false_eq_true, if_false]
      split <;> intro h <;> cases h

/-- **One event**, when the call is live. -/
theorem wp_processEvent_onTheLine {event : ProviderEvent}
    (he : event.About providerName providerCallId) {s : State} {d : Call} {b : Borrower}
    (h : OnTheLine providerName providerCallId s d b) :
    (secluded cfg i).wp i (EventProcessor.processEvent cfg event)
      (Finishes fun _ s' => @After providerName providerCallId event s d b s'.1) (s, ()) := by
  have hs : Holding s.calls s.borrowers (recorded s) (s, ()) := ⟨rfl, rfl, rfl⟩
  refine wp_processEvent (fun hseen s₁ hs₁ => .duplicate hseen hs₁.2.2 (h.of_holding hs₁))
    (fun hseen s₁ hs₁ => ?_) hs
  have hattached : 2 ≤ rank d.state := by
    have hid := (Collection.findOne_some h.found).2
    simp only [Bool.and_eq_true, beq_iff_eq] at hid
    exact h.wellFormed.attached (by rw [hid.2]; rfl)
  -- an event applies exactly if it takes the call up in rank
  by_cases happly : ∃ t, eventTypeToCallState event.eventType = some t
      ∧ rank d.state < rank t
  · obtain ⟨t, ht, hrank⟩ := happly
    have hp : CallRepository.advanceable t d = true := h.wellFormed.advanceable_iff.mpr hrank
    -- on a call that is attached, every step up is legal
    have hlegal : shouldApplyEvent d.state t = .apply := by
      rw [shouldApplyEvent, h.live, if_neg (by simp), if_neg (by omega),
        canTransition_of_rank hattached hrank, if_neg (by simp)]
    have hget : s.calls.get d.id = some d := (Collection.findOne_some h.found).1
    refine wp_applyEvent_applied he h.found ht hlegal hs₁ fun s₂ hs₂ => ?_
    refine finishes_mono (wp_applyTransition event hget hp hs₂) fun _ s₃ hs₃ => ?_
    obtain ⟨now, now', hcalls, hborrowers, hrec⟩ := hs₃
    have hfound := find_stepTo h.found hp now event
    rw [← hcalls] at hfound
    by_cases hterm : isTerminal t = true
    · rw [if_pos hterm] at hborrowers
      have hreleasable : BorrowerRepository.releasable d.createdByWorker b = true :=
        BorrowerRepository.releasable_of_reserved h.reserved h.worker
      have hb : s₃.1.borrowers.get d.borrowerId = some ((releaseAfter cfg now'
          ((stepTo now event d t).update.apply d) t).update.apply b) := by
        rw [hborrowers]
        exact Collection.get_write_of_filter
          (w := releaseAfter cfg now' ((stepTo now event d t).update.apply d) t)
          h.borrower hreleasable
      -- the step that ends the call does not stamp the answer
      have hanswered : ((stepTo now event d t).update.apply d).answeredAt = d.answeredAt := by
        have hne : t ≠ .answered := by
          rintro rfl
          cases hterm
        exact if_neg hne
      obtain ⟨hcount, hcontact⟩ := release_outcome cfg now'
        (t == .completed && ((stepTo now event d t).update.apply d).answeredAt.isSome) b
      refine .ended t _ hseen hrec ht hrank hterm ⟨⟨_, hfound, hterm⟩, hb⟩ hcount ?_
      rw [← hanswered]
      exact hcontact
    · rw [if_neg hterm] at hborrowers
      have hlive : isTerminal t = false := by simpa using hterm
      refine .moved t _ hseen hrec ht hrank hlive
        ⟨hfound, advance_wellFormed h.wellFormed _ _ _ hp, hlive, hborrowers ▸ h.borrower,
          h.reserved, h.worker⟩ rfl rfl ?_
      change (if t = .answered then some now else d.answeredAt).isSome = _
      split
      · rename_i heq
        rw [heq]
        simp
      · rename_i hne
        have : (t == .answered) = false := by simpa using hne
        rw [this, Bool.or_false]
  · have hstale : ∀ t, eventTypeToCallState event.eventType = some t →
        rank t ≤ rank d.state := by
      intro t ht
      by_contra hlt
      exact happly ⟨t, ht, by omega⟩
    refine finishes_mono (wp_applyEvent_ignored he h.found (fun t ht heq => ?_) hs₁)
      fun _ s₂ hs₂ => .ignored hseen hs₂.2.2 hstale (h.of_holding hs₂)
    have := (shouldApplyEvent_apply heq).2.1
    have := hstale t ht
    omega

/-- An event about a call that is over changes nothing for the borrower. -/
theorem wp_processEvent_hungUp {event : ProviderEvent}
    (he : event.About providerName providerCallId) {s : State} {borrowerId : String} {b : Borrower}
    (h : HungUp providerName providerCallId s borrowerId b) :
    (secluded cfg i).wp i (EventProcessor.processEvent cfg event)
      (Finishes fun _ s' => HungUp providerName providerCallId s'.1 borrowerId b) (s, ()) := by
  obtain ⟨⟨d, hfound, hterm⟩, hborrower⟩ := h
  have hkeep : ∀ (seen : List (String × String)) (s₁ : State × Unit),
      Holding s.calls s.borrowers seen s₁ →
        HungUp providerName providerCallId s₁.1 borrowerId b := by
    intro seen s₁ hs₁
    exact ⟨⟨d, hs₁.1 ▸ hfound, hterm⟩, hs₁.2.1 ▸ hborrower⟩
  refine wp_processEvent (fun _ => hkeep _) (fun _ s₁ hs₁ => ?_) ⟨rfl, rfl, rfl⟩
  refine finishes_mono (wp_applyEvent_ignored he hfound (fun t _ heq => ?_) hs₁)
    fun _ => hkeep _
  have hlive := (shouldApplyEvent_apply heq).1
  rw [hterm] at hlive
  cases hlive

/-! ## A sequence of events -/

/-- What the deliveries made of the borrower. -/
def Comes (providerName providerCallId borrowerId : String) (b : Borrower) (s : State) :
    Option Bool → Prop
  | none => ∃ d, OnTheLine providerName providerCallId s d b ∧ d.borrowerId = borrowerId
  | some contact => ∃ b', HungUp providerName providerCallId s borrowerId b'
      ∧ b'.attemptCount = b.attemptCount + 1 ∧ (b'.status = .contacted ↔ contact = true)

variable {env : Nat → Choice}

theorem hungUp_processAll {es : List ProviderEvent}
    (hes : ∀ e ∈ es, e.About providerName providerCallId) (henv : ∀ n, (env n).fault = .none)
    {s : State} {n : Nat} {borrowerId : String} {b : Borrower}
    (h : HungUp providerName providerCallId s borrowerId b) :
    HungUp providerName providerCallId (processAll cfg i env es (s, n)).1 borrowerId b := by
  induction es generalizing s n with
  | nil => exact h
  | cons e es ih =>
      have hwp : (secluded cfg i).wp i (EventProcessor.processEvent cfg e)
          (Finishes fun _ s' => HungUp providerName providerCallId s'.1 borrowerId b) (s, ()) :=
        wp_processEvent_hungUp (hes e List.mem_cons_self) h
      obtain ⟨_, -, hnext⟩ := eval_solo_of_wp (n := n) (fun k _ => henv k) hwp
      exact ih (fun e' he' => hes e' (List.mem_cons_of_mem e he')) hnext

/-- **The deliveries make of the borrower what the machine says.** -/
theorem processAll_outcome {es : List ProviderEvent}
    (hes : ∀ e ∈ es, e.About providerName providerCallId) (henv : ∀ n, (env n).fault = .none)
    {s : State} {n : Nat} {d : Call} {b : Borrower}
    (h : OnTheLine providerName providerCallId s d b) :
    Comes providerName providerCallId d.borrowerId b (processAll cfg i env es (s, n)).1
      (outcome d.state d.answeredAt.isSome (heard (recorded s) es)) := by
  induction es generalizing s n d with
  | nil => exact ⟨d, h, rfl⟩
  | cons e es ih =>
      have hrest := fun e' he' => hes e' (List.mem_cons_of_mem e he')
      have hwp : (secluded cfg i).wp i (EventProcessor.processEvent cfg e)
          (Finishes fun _ s' => @After providerName providerCallId e s d b s'.1) (s, ()) :=
        wp_processEvent_onTheLine (hes e List.mem_cons_self) h
      obtain ⟨_, -, hafter⟩ := eval_solo_of_wp (n := n) (fun k _ => henv k) hwp
      rw [processAll, heard]
      generalize ((EventProcessor.processEvent cfg e).eval (solo i env) (s, n)).2 = x
        at hafter ⊢
      obtain ⟨s', n'⟩ := x
      -- one case for each thing an event can come to, as the machine has it
      cases hafter with
      | duplicate hseen hrec hline =>
          have hcomes := ih hrest (n := n') hline
          rw [hrec] at hcomes
          rw [if_pos hseen]
          exact hcomes
      | ignored hseen hrec hstale hline =>
          have hcomes := ih hrest (n := n') hline
          rw [hrec] at hcomes
          rw [if_neg hseen]
          cases ht : eventTypeToCallState e.eventType with
          | none => exact hcomes
          | some t =>
              rw [Option.toList_some, List.singleton_append, outcome, if_pos (hstale t ht)]
              exact hcomes
      | moved t d' hseen hrec ht hrank hlive hline hstate hborrower hanswered =>
          have hcomes := ih hrest (n := n') hline
          rw [hrec, hstate, hanswered, hborrower] at hcomes
          rw [if_neg hseen, ht, Option.toList_some, List.singleton_append, outcome,
            if_neg (by omega), hlive, if_neg (by simp)]
          exact hcomes
      | ended t b' hseen hrec ht hrank hterm hover hcount hcontact =>
          rw [if_neg hseen, ht, Option.toList_some, List.singleton_append, outcome,
            if_neg (by omega), if_pos hterm]
          exact ⟨b', hungUp_processAll hrest henv hover, hcount, hcontact⟩

/-- Deliveries about a call that was answered and ends by being COMPLETED. -/
structure Deliveries (providerName providerCallId : String) (es : List ProviderEvent) : Prop where
  about : ∀ e ∈ es, e.About providerName providerCallId
  answered : ∃ e ∈ es, e.eventType = "ANSWERED" ∨ e.eventType = "CONNECTED"
  completed : ∃ e ∈ es, e.eventType = "COMPLETED"
  /-- There is no other terminal event among them. -/
  terminal : ∀ e ∈ es, ∀ t, eventTypeToCallState e.eventType = some t → isTerminal t = true →
    t = .completed

/-- In both states the borrower is CONTACTED, after the same number of attempts. -/
def SameContact (borrowerId : String) (s s' : State) : Prop :=
  ∃ b ∈ s.borrowers.get borrowerId, ∃ b' ∈ s'.borrowers.get borrowerId,
    b.status = .contacted ∧ b'.status = .contacted ∧ b.attemptCount = b'.attemptCount

theorem mem_heard {es : List ProviderEvent} {seen : List (String × String)} {t : CallState}
    (h : t ∈ heard seen es) : ∃ e ∈ es, eventTypeToCallState e.eventType = some t := by
  induction es generalizing seen with
  | nil => cases h
  | cons e es ih =>
      have hrest : ∀ seen, t ∈ heard seen es →
          ∃ e' ∈ e :: es, eventTypeToCallState e'.eventType = some t := by
        intro seen h
        obtain ⟨e', he', ht⟩ := ih h
        exact ⟨e', List.mem_cons_of_mem e he', ht⟩
      rw [heard] at h
      split at h
      · exact hrest _ h
      · rcases List.mem_append.mp h with h | h
        · exact ⟨e, List.mem_cons_self, Option.mem_toList.mp h⟩
        · exact hrest _ h

variable (cfg i) in
/-- A sequence of deliveries ends in a contact exactly when it tells of the answer in time. -/
theorem contacted_iff {es : List ProviderEvent} (hes : Deliveries providerName providerCallId es)
    (henv : ∀ n, (env n).fault = .none) {s : State} {d : Call} {b : Borrower}
    (h : OnTheLine providerName providerCallId s d b) :
    ∃ b' ∈ (processAll cfg i env es (s, 0)).1.borrowers.get d.borrowerId,
      (b'.status = .contacted ↔ TellsAnswer d.state d.answeredAt.isSome (heard (recorded s) es))
        ∧ (b'.status = .contacted → b'.attemptCount = b.attemptCount + 1) := by
  have hcomes : Comes providerName providerCallId d.borrowerId b
      (processAll cfg i env es (s, 0)).1
      (outcome d.state d.answeredAt.isSome (heard (recorded s) es)) :=
    processAll_outcome hes.about henv h
  have hterm : ∀ t ∈ heard (recorded s) es, isTerminal t = true → t = .completed := by
    intro t ht hend
    obtain ⟨e, he, htype⟩ := mem_heard ht
    exact hes.terminal e he t htype hend
  -- the deliveries tell of the answer exactly if the machine ends in a contact
  rw [← outcome_iff_tellsAnswer hterm h.live]
  cases hout : outcome d.state d.answeredAt.isSome (heard (recorded s) es) with
  | none =>
      rw [hout] at hcomes
      obtain ⟨d', hline, hid⟩ := hcomes
      refine ⟨b, hid ▸ hline.borrower, ?_, ?_⟩
      · rw [hline.reserved]
        exact iff_of_false (fun h => by cases h) fun h => by cases h
      · rw [hline.reserved]
        intro h
        cases h
  | some contact =>
      rw [hout] at hcomes
      obtain ⟨b', hover, hcount, hcontact⟩ := hcomes
      exact ⟨b', hover.borrower, by simpa using hcontact, fun _ => hcount⟩

/--
**The outcome of two orders of delivery.** For an attached call that is live and whose
borrower is RESERVED for it, and for any two orders of the same deliveries: both leave the
borrower CONTACTED, after the same number of attempts, exactly when in both the answer is
told of by an ANSWERED event before anything that skips it.
-/
theorem contact_in_both_orders {i' : Nat} {env' : Nat → Choice} {es es' : List ProviderEvent}
    (hes : Deliveries providerName providerCallId es) (hperm : es.Perm es')
    (henv : ∀ n, (env n).fault = .none) (henv' : ∀ n, (env' n).fault = .none) {s : State}
    {d : Call} {b : Borrower} (h : OnTheLine providerName providerCallId s d b) :
    SameContact d.borrowerId (processAll cfg i env es (s, 0)).1
        (processAll cfg i' env' es' (s, 0)).1
      ↔ TellsAnswer d.state d.answeredAt.isSome (heard (recorded s) es)
        ∧ TellsAnswer d.state d.answeredAt.isSome (heard (recorded s) es') := by
  have hes' : Deliveries providerName providerCallId es' := by
    obtain ⟨e, he, hanswered⟩ := hes.answered
    obtain ⟨f, hf, hcompleted⟩ := hes.completed
    exact ⟨fun e he => hes.about e (hperm.mem_iff.mpr he), ⟨e, hperm.mem_iff.mp he, hanswered⟩,
      ⟨f, hperm.mem_iff.mp hf, hcompleted⟩, fun e he => hes.terminal e (hperm.mem_iff.mpr he)⟩
  obtain ⟨c, hc, hiff, hcount⟩ := contacted_iff cfg i hes henv h
  obtain ⟨c', hc', hiff', hcount'⟩ := contacted_iff cfg i' hes' henv' h
  rw [← hiff, ← hiff']
  constructor
  · rintro ⟨x, hx, x', hx', hstatus, hstatus', -⟩
    obtain rfl : x = c := Option.some.inj (hx.symm.trans hc)
    obtain rfl : x' = c' := Option.some.inj (hx'.symm.trans hc')
    exact ⟨hstatus, hstatus'⟩
  · rintro ⟨hstatus, hstatus'⟩
    exact ⟨c, hc, c', hc', hstatus, hstatus', (hcount hstatus).trans (hcount' hstatus').symm⟩

end

/-! ## An answer, and a connection -/

/-- One event of each of these types about the call. -/
def eventsOf (types : List String) : List ProviderEvent := types.map eventOf

theorem eventsOf_deliveries {types : List String} (hanswered : "ANSWERED" ∈ types)
    (hcompleted : "COMPLETED" ∈ types) (hfailed : "FAILED" ∉ types)
    (hcancelled : "CANCELLED" ∉ types) :
    Deliveries "mock_a" "provider-call" (eventsOf types) where
  about e he := by
    obtain ⟨type, -, rfl⟩ := List.mem_map.mp he
    exact ⟨rfl, rfl⟩
  answered := ⟨eventOf "ANSWERED", List.mem_map_of_mem hanswered, .inl rfl⟩
  completed := ⟨eventOf "COMPLETED", List.mem_map_of_mem hcompleted, rfl⟩
  terminal e he t ht hterm := by
    obtain ⟨type, htype, rfl⟩ := List.mem_map.mp he
    change eventTypeToCallState type = some t at ht
    rw [eventTypeToCallState.eq_def] at ht
    split at ht <;> cases ht
    -- RINGING, ANSWERED and CONNECTED are not terminal, FAILED and CANCELLED not among them
    · cases hterm
    · cases hterm
    · cases hterm
    · rfl
    · exact absurd htype hfailed
    · exact absurd htype hcancelled

theorem inOrder_deliveries :
    Deliveries "mock_a" "provider-call" (eventsOf ["ANSWERED", "CONNECTED", "COMPLETED"]) :=
  eventsOf_deliveries (by decide) (by decide) (by decide) (by decide)

/-- The call of `oneDial`, and what two orders of these events make of its borrower. -/
def afterOrders (types types' : List String) (test : State → Call → State → State → Bool)
    (s : State) : Bool :=
  (CallRepository.findByProviderCallId "mock_a" "provider-call" s.calls).any fun d =>
    (s.borrowers.get d.borrowerId).any (fun b => isTerminal d.state == false
      && b.status == .reserved && b.reservedBy == some d.createdByWorker)
    && (s.agents.get d.agentId).any (fun a => a.state == .dialing && a.currentCallId == some d.id)
    && test s d (processAll {} 1 (fun _ => {}) (eventsOf types) (s, 0)).1
      (processAll {} 1 (fun _ => {}) (eventsOf types') (s, 0)).1

/-- The agent of a call is bound to it, and DIALING. -/
def Dialling (s : State) (d : Call) : Prop :=
  ∃ a ∈ s.agents.get d.agentId, a.state = .dialing ∧ a.currentCallId = some d.id

theorem afterOrders_spec {types types' : List String}
    {test : State → Call → State → State → Bool} {w : World (dialer {})}
    (hw : Reachable (Policy.any (dialer {})) CallsWellFormed w)
    (h : afterOrders types types' test w.st = true) :
    ∃ d b, OnTheLine "mock_a" "provider-call" w.st d b ∧ Dialling w.st d
      ∧ test w.st d (processAll {} 1 (fun _ => {}) (eventsOf types) (w.st, 0)).1
        (processAll {} 1 (fun _ => {}) (eventsOf types') (w.st, 0)).1 = true := by
  obtain ⟨d, hd, h⟩ := Option.any_eq_true _ _ |>.mp h
  simp only [Bool.and_eq_true] at h
  obtain ⟨⟨hb, ha⟩, htest⟩ := h
  obtain ⟨b, hb, hrest⟩ := Option.any_eq_true _ _ |>.mp hb
  obtain ⟨a, ha, hbound⟩ := Option.any_eq_true _ _ |>.mp ha
  simp only [Bool.and_eq_true, beq_iff_eq] at hrest hbound
  have hwf := (lifecycle_reachable hw).1 _ d (Collection.findOne_some hd).1
  exact ⟨d, b, ⟨hd, hwf, hrest.1.1, hb, hrest.1.2, hrest.2⟩, ⟨a, ha, hbound⟩, htest⟩

/-- A CONNECTED event that overtakes the ANSWERED one: the contact is not counted as one. -/
theorem contact_lost_in_one_order :
    ∃ w, Reachable (Policy.any (dialer {})) CallsWellFormed w ∧ ∃ d b es es',
      OnTheLine "mock_a" "provider-call" w.st d b ∧ Dialling w.st d
      ∧ Deliveries "mock_a" "provider-call" es ∧ es.Perm es'
      ∧ ¬SameContact d.borrowerId (processAll {} 1 (fun _ => {}) es (w.st, 0)).1
        (processAll {} 1 (fun _ => {}) es' (w.st, 0)).1 := by
  obtain ⟨w, hw, htest⟩ := Reachable.of_play (Policy.any (dialer {}))
    oneAgent_fresh.noCalls.wellFormed oneDial
    (fun w => afterOrders ["ANSWERED", "CONNECTED", "COMPLETED"]
      ["CONNECTED", "ANSWERED", "COMPLETED"]
      (fun _ d _ s' => (s'.borrowers.get d.borrowerId).all (fun b => b.status != .contacted)) w.st)
    (by decide +kernel)
  obtain ⟨d, b, hline, hdialling, hlost⟩ := afterOrders_spec hw htest
  refine ⟨w, hw, d, b, _, _, hline, hdialling, inOrder_deliveries,
    (List.Perm.swap ..).map _, ?_⟩
  rintro ⟨-, -, b', hb', -, hstatus, -⟩
  have hnot : (b'.status != .contacted) = true := Option.all_eq_true _ _ |>.mp hlost b' hb'
  rw [hstatus] at hnot
  cases hnot

/-- Two orders in which the ANSWERED event comes first. -/
theorem contact_in_both_orders_answeredFirst :
    ∃ w, Reachable (Policy.any (dialer {})) CallsWellFormed w ∧ ∃ d b,
      OnTheLine "mock_a" "provider-call" w.st d b
      ∧ SameContact d.borrowerId
        (processAll {} 1 (fun _ => {}) (eventsOf ["ANSWERED", "CONNECTED", "COMPLETED"])
          (w.st, 0)).1
        (processAll {} 1 (fun _ => {}) (eventsOf ["ANSWERED", "COMPLETED", "CONNECTED"])
          (w.st, 0)).1 := by
  obtain ⟨w, hw, htest⟩ := Reachable.of_play (Policy.any (dialer {}))
    oneAgent_fresh.noCalls.wellFormed oneDial
    (fun w => afterOrders ["ANSWERED", "CONNECTED", "COMPLETED"]
      ["ANSWERED", "COMPLETED", "CONNECTED"]
      (fun s d _ _ => decide
        (TellsAnswer d.state d.answeredAt.isSome
            (heard (recorded s) (eventsOf ["ANSWERED", "CONNECTED", "COMPLETED"]))
          ∧ TellsAnswer d.state d.answeredAt.isSome
            (heard (recorded s) (eventsOf ["ANSWERED", "COMPLETED", "CONNECTED"])))) w.st)
    (by decide +kernel)
  obtain ⟨d, b, hline, -, htells⟩ := afterOrders_spec hw htest
  exact ⟨w, hw, d, b, hline, (contact_in_both_orders inOrder_deliveries
    ((List.Perm.swap ..).cons _ |>.map _) (fun _ => rfl) (fun _ => rfl) hline).mpr
    (of_decide_eq_true htells)⟩

end SmartDialer
