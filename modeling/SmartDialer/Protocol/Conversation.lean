import SmartDialer.Protocol.AgentSweeps

/-!
# What recovery does to a conversation

Three of the five sweeps can end a call: that of expired agent leases and that of silent
agents, through the call the agent is bound to, and that of stale calls. Each looks the
candidates up and then works through them, one after the other. A call that is ANSWERED or
CONNECTED comes to harm when a look-up reports it, and nothing renews a lease or touches a
call while two people talk; or when it is answered after a sweep has taken it for dead.

The theorem is about one call, and about the runs in which neither happens to it.
-/

namespace SmartDialer

open Store Conc

/-! ## The runs -/

/-- Two people are talking. -/
def Live (callId : String) (s : State) : Prop :=
  ∃ d ∈ s.calls.get callId, d.state = .answered ∨ d.state = .connected

instance (callId : String) (s : State) : Decidable (Live callId s) :=
  inferInstanceAs (Decidable (∃ d ∈ _, _))

/-- The agent is bound to the call. -/
def Agent.boundTo (callId : String) (a : Agent) : Bool := a.currentCallId == some callId

/-- What a sweep reports the call by: itself, or the agent that is bound to it. -/
def Op.reports (callId : String) : (o : Op) → Except Exn (Ans o) → Option Bool
  | .findExpiredAgentLeases _ _, .ok agents => some (agents.any (Agent.boundTo callId))
  | .findHeartbeatExpired _ _, .ok agents => some (agents.any (Agent.boundTo callId))
  | .findStaleCalls _ _, .ok calls => some (calls.any fun d => d.id == callId)
  | .findExpiredBorrowerLeases _ _, .ok _ => some false
  | .findExpiredWrapUps _ _ _, .ok _ => some false
  -- a provider that does not answer does not end the sweep
  | .getCallStatus _ _, .error (.provider _) => none
  | _, .error _ => some false
  | _, _ => none

/-- A look-up of recovery that reports the call now. -/
def Op.finds (callId : String) (s : State) : Op → Bool
  | .findExpiredAgentLeases now limit =>
      (AgentRepository.findExpiredAgentLeases now limit s.agents).any (Agent.boundTo callId)
  | .findHeartbeatExpired olderThan limit =>
      (AgentRepository.findHeartbeatExpired olderThan limit s.agents).any (Agent.boundTo callId)
  | .findStaleCalls olderThan limit =>
      (CallRepository.findStaleCalls olderThan limit s.calls).any fun d => d.id == callId
  | _ => false

/-- The operation is the answer of the called party. -/
def Op.answers (callId : String) : Op → Bool
  | .transitionCall callId' targetState _ =>
      callId' == callId && (targetState == .answered || targetState == .connected)
  | _ => false

/--
The runs in which no look-up of recovery reports the call while it is ANSWERED or CONNECTED,
and it is not answered while a sweep that has reported it is working through its candidates.
-/
def sparing (callId : String) (cfg : Settings) : Policy (dialer cfg) where
  task _ := True
  run _ o ch s :=
    (Live callId s → o.finds callId s = false)
    ∧ (ch.performs o = true → o.answers callId = true → ¬Live callId s → ∀ e ∈ s.log,
      engaged (Op.reports callId) e.process s.log = false)

instance (callId : String) (cfg : Settings) : (sparing callId cfg).Checkable where
  task _ := .isTrue trivial
  run _ _ _ _ := inferInstanceAs (Decidable (_ ∧ _))

/-! ## What one operation does to the call -/

section

variable {callId : String} {i : Nat} {o : Op} {ch : Choice} {s : State}

/-- The operation takes the call to a terminal state. -/
def Op.Ends (callId : String) : Op → Prop
  | .transitionCall callId' targetState _ => callId' = callId ∧ isTerminal targetState = true
  | _ => False

/-- The call is not over. -/
def Unended (callId : String) (s : State) : Prop :=
  ∀ d, s.calls.get callId = some d → isTerminal d.state = false

/-- What becomes of the state of a call. -/
theorem state_of_rewritten {d d' : Call} (h : Rewritten (o.callWrite ch) d d') :
    d'.state = d.state ∨ ∃ reason, o = .transitionCall d.id d'.state reason := by
  cases h with
  | same => exact .inl rfl
  | written v hv hk hp =>
      cases o, v, hv using Op.callWrite_cases with
      | transitionCall callId t reason =>
          obtain rfl : d.id = callId := hk
          exact .inr ⟨reason, rfl⟩
      | attachProviderCallId _ _ =>
          exact .inl rfl

/-- A conversation goes on, unless the operation ends it. -/
theorem unended_of_live (ho : ¬o.Ends callId) (hlive : Live callId s) :
    Unended callId (exec i o ch s).2 := by
  obtain ⟨d, hd, hstate⟩ := hlive
  obtain ⟨d', hd', hrew⟩ := call_exec (i := i) (o := o) (c := ch) hd
  intro d'' hd''
  obtain rfl : d' = d'' := Option.some.inj (hd'.symm.trans hd'')
  rcases state_of_rewritten hrew with heq | ⟨reason, rfl⟩
  · rw [heq]
    rcases hstate with h | h
    · rw [h]
      rfl
    · rw [h]
      rfl
  · by_contra hterm
    have hid : d.id = callId := Collection.key_of_get hd
    exact ho ⟨hid, by simpa using hterm⟩

/-- A conversation begins with an answer. -/
theorem live_of_exec (hlive : Live callId (exec i o ch s).2) :
    Live callId s ∨ ch.performs o = true ∧ o.answers callId = true := by
  by_cases hperf : ch.performs o = true
  · obtain ⟨d', hd', hstate⟩ := hlive
    rcases call_of_exec hd' with ⟨hnew, -⟩ | ⟨d, hd, hrew⟩
    · have hqueued := (callInsert_some hnew).2.1
      rw [hqueued] at hstate
      rcases hstate with h | h
      · cases h
      · cases h
    · rcases state_of_rewritten hrew with heq | ⟨reason, rfl⟩
      · rw [heq] at hstate
        exact .inl ⟨d, hd, hstate⟩
      · refine .inr ⟨hperf, ?_⟩
        have hid : d.id = callId := Collection.key_of_get hd
        simpa [Op.answers, hid] using hstate
  · rw [exec_of_not_performs (by simpa using hperf)] at hlive
    exact .inl hlive

end

/-! ## The logic -/

section

variable {callId : String} {cfg : Settings} {i : Nat}

/-- What is in the hands of a sweep does not come alive. -/
def conversation (callId : String) (cfg : Settings) : Logic (sparing callId cfg) Unit where
  Inv _ := True
  Guar i s s' := ∀ j, j ≠ i →
    engaged (Op.reports callId) j s'.1.log = engaged (Op.reports callId) j s.1.log
      ∧ (engaged (Op.reports callId) j s.1.log = true → ¬Live callId s.1 → ¬Live callId s'.1)

theorem conversation_guar {o : Op} {ch : Choice} {s : State × Unit}
    (hc : (sparing callId cfg).run i o ch s.1) :
    (conversation callId cfg).Guar i s ((exec i o ch s.1).2, ()) := by
  intro j hj
  refine ⟨engaged_exec_other hj o ch s.1, fun hengaged hdead hlive => ?_⟩
  rcases live_of_exec hlive with h | ⟨hperf, hans⟩
  · exact hdead h
  · obtain ⟨e, he, rfl⟩ := mem_of_engaged hengaged
    have hfree := hc.2 hperf hans hdead e he
    rw [hengaged] at hfree
    cases hfree

theorem conversation_verified : (conversation callId cfg).Verified fun _ => True where
  init s _ := ⟨(), trivial⟩
  task t _ i s _ := by
    refine wp_all_anyhow (R := fun _ => True) (Prog.all_of_forall (fun _ => trivial) _) ?_
    intro o _ s _ _ ch hc
    exact ⟨(), trivial, conversation_guar hc, trivial⟩
  crash i s _ := ⟨(), trivial, fun _ hj => ⟨engaged_crash_other hj s.1, fun _ h => h⟩⟩

/-- The logic in which process `i` also promises to end no conversation. -/
def considerate (callId : String) (i : Nat) (cfg : Settings) : Logic (sparing callId cfg) Unit :=
  (conversation callId cfg).promising i fun s s' => Live callId s.1 → Unended callId s'.1

/-- Process `i` has reported the call, which is not alive. -/
def Given (callId : String) (i : Nat) : Assertion Unit := fun s =>
  engaged (Op.reports callId) i s.1.log = true ∧ ¬Live callId s.1

theorem given_stable (p : Prop) :
    (considerate callId i cfg).Stable i fun s => p → Given callId i s := by
  refine Logic.Stable.promising (Logic.stable_of_step ?_)
  intro j s s' hj hg _ h hp
  obtain ⟨hengaged, hdead⟩ := h hp
  obtain ⟨hsame, hkept⟩ := hg i hj.symm
  exact ⟨hsame.trans hengaged, hkept hengaged hdead⟩

/-- The triple of an operation that does not end a conversation. -/
theorem considerate_atomic {o : Op} {A : Assertion Unit}
    {B : Except Exn (Ans o) → Assertion Unit}
    (ho : ∀ s, A s → Live callId s.1 → ¬o.Ends callId)
    (hB : ∀ ch s, (sparing callId cfg).run i o ch s.1 → A s →
      B (exec i o ch s.1).1 ((exec i o ch s.1).2, ())) :
    (considerate callId i cfg).Atomic i o A B := by
  intro s _ hs ch hc
  refine ⟨(), trivial, ⟨conversation_guar hc, fun _ hlive => ?_⟩, hB ch s hc hs⟩
  exact unended_of_live (ho s hs hlive) hlive

/-- The loop invariant of a sweep: what it reported stays reported, and dead. -/
def InHand (callId : String) (i : Nat) (p : Prop) : Assertion Unit := fun s =>
  p → Given callId i s

/-- An operation of a sweep that answers no call. -/
def Op.Sweeping (callId : String) (o : Op) : Prop :=
  o.answers callId = false ∧ ∀ a, o.reports callId (.ok a) = none

/-- What is in hand stays in hand, when an operation of the sweep is answered. -/
theorem inHand_exec {o : Op} (ho : o.Sweeping callId) {p : Prop} {ch : Choice}
    {s : State × Unit} {a : Ans o} (hr : (exec i o ch s.1).1 = .ok a)
    (hs : InHand callId i p s) : InHand callId i p ((exec i o ch s.1).2, ()) := by
  intro hp
  obtain ⟨hengaged, hdead⟩ := hs hp
  refine ⟨?_, fun hlive => ?_⟩
  · rw [engaged_exec, hr, ho.2 a]
    exact hengaged
  · rcases live_of_exec hlive with h | ⟨-, hans⟩
    · exact hdead h
    · rw [ho.1] at hans
      cases hans

/-- An operation of a sweep, and what its answer says. -/
theorem sweeping_atomic {o : Op} (ho : o.Sweeping callId) {p : Prop}
    (hend : o.Ends callId → p) {f : Ans o → Prop}
    (hf : ∀ ch s a, (exec i o ch s).1 = .ok a → f a) :
    (considerate callId i cfg).Atomic i o (InHand callId i p)
      (Returns fun a s => InHand callId i p s ∧ f a) := by
  refine considerate_atomic (fun s hs hlive hends => (hs (hend hends)).2 hlive) ?_
  intro ch s _ hs
  generalize hr : (exec i o ch s.1).1 = r
  cases r with
  | ok a => exact ⟨inHand_exec ho hr hs, hf ch s.1 a hr⟩
  | error e => trivial

/-- An operation that leaves in hand what is in hand. -/
theorem sweeping_keep {o : Op} (ho : o.Sweeping callId) {p : Prop} (hend : o.Ends callId → p) :
    (considerate callId i cfg).Atomic i o (InHand callId i p)
      (Returns fun _ => InHand callId i p) := by
  refine Logic.Atomic.mono (sweeping_atomic ho hend (f := fun _ => True) fun _ _ _ _ => trivial)
    (fun _ h => h) fun r s h => ?_
  cases r with
  | ok a => exact h.1
  | error e => trivial

theorem wp_sweeping {o : Op} (ho : o.Sweeping callId) {p : Prop} (hend : o.Ends callId → p)
    {s : State × Unit} (hs : InHand callId i p s) :
    (considerate callId i cfg).wp i (await o) (Returns fun _ => InHand callId i p) s :=
  Logic.wp_perform (given_stable p) (sweeping_keep ho hend) hs

/-! ## The sweeps -/

theorem considerate_releaseBorrower (call : Call) {p : Prop} {s : State × Unit}
    (hs : InHand callId i p s) :
    (considerate callId i cfg).wp i (RecoveryWorker.releaseBorrower cfg call)
      (Returns fun _ => InHand callId i p) s :=
  wp_bind_returns (wp_sweeping ⟨rfl, fun _ => rfl⟩ False.elim hs) fun _ _ h => h

/-- The call of an agent is cancelled only if the agent was reported for it. -/
theorem considerate_cancel {agent : Agent} (reason : String) {p : Prop}
    (hp : agent.boundTo callId = true → p) :
    CancelOutline (considerate callId i cfg) i agent reason (InHand callId i p)
      (InHand callId i p) where
  stable_before := given_stable p
  stable_after := given_stable p
  unbound _ _ h := h
  find boundId _ := by
    refine Logic.Atomic.mono (sweeping_atomic (f := fun found => ∀ call, found = some call →
      call.id = boundId) ⟨rfl, fun _ => rfl⟩ False.elim ?_) (fun _ h => h) fun r s h => ?_
    · intro ch s found hr call hcall
      obtain ⟨heff, -⟩ := exec_ok hr
      exact Collection.key_of_get ((Except.ok.inj heff).trans hcall)
    · cases r with
      | error e => trivial
      | ok found =>
          obtain ⟨hs, hid⟩ := h
          cases found with
          | none => exact hs
          | some call =>
              change OnBound _ _ boundId (some call) s
              rw [OnBound]
              split
              · exact hs
              · exact ⟨hid call rfl, hs⟩
  cancel boundId hbound := by
    refine sweeping_keep ⟨?_, fun _ => rfl⟩ ?_
    -- a cancellation does not answer the call
    · simp [Op.answers]
    · rintro ⟨hcall, -⟩
      refine hp ?_
      rw [Agent.boundTo, hbound, hcall]
      exact beq_self_eq_true _
  releaseBorrower _ := sweeping_keep ⟨rfl, fun _ => rfl⟩ False.elim

theorem considerate_recoverAgentLease (now : Time) (agent : Agent) {p : Prop}
    (hp : agent.boundTo callId = true → p) {s : State × Unit} (hs : InHand callId i p s) :
    (considerate callId i cfg).wp i (RecoveryWorker.recoverAgentLease cfg now agent)
      (Returns fun _ => InHand callId i p) s :=
  wp_bind_returns ((considerate_cancel _ hp).wp_cancelBoundCall hs) fun _ _ h =>
    wp_bind_returns (wp_sweeping ⟨rfl, fun _ => rfl⟩ False.elim h) fun _ _ h => h

theorem considerate_logOutAgent (agent : Agent) {p : Prop}
    (hp : agent.boundTo callId = true → p) {s : State × Unit} (hs : InHand callId i p s) :
    (considerate callId i cfg).wp i (RecoveryWorker.logOutAgent cfg agent)
      (Returns fun _ => InHand callId i p) s := by
  refine wp_bind_returns ((considerate_cancel _ hp).wp_cancelBoundCall hs) fun _ s₁ h => ?_
  refine wp_bind_returns (f := fun _ => InHand callId i p) ?_ fun _ _ h => h
  rw [Agents.transitionAgent]
  split
  · trivial
  · exact wp_sweeping ⟨rfl, fun _ => rfl⟩ False.elim h

/-- Whatever the provider answers, a stale call is to be over. -/
theorem considerate_reconcileWithProvider (call : Call) {p : Prop} {s : State × Unit}
    (hs : InHand callId i p s) :
    (considerate callId i cfg).wp i (RecoveryWorker.reconcileWithProvider call)
      (Returns fun t s => InHand callId i p s ∧ (t = .completed ∨ t = .failed)) s := by
  rw [RecoveryWorker.reconcileWithProvider]
  split
  · exact ⟨hs, .inr rfl⟩
  · rename_i providerCallId _
    split
    · exact ⟨hs, .inr rfl⟩
    · have hask : (considerate callId i cfg).Atomic i
          (.getCallStatus call.providerName providerCallId) (InHand callId i p) (fun r s =>
            (∀ status, r = .ok status → InHand callId i p s)
              ∧ ∀ e, r = .error (.provider e) → InHand callId i p s) := by
        refine considerate_atomic (fun _ _ _ h => h) ?_
        intro ch s _ hs
        refine ⟨fun status hr => inHand_exec ⟨rfl, fun _ => rfl⟩ hr hs, fun e hr hp => ?_⟩
        -- an error of the provider changes nothing either, and is caught
        obtain ⟨hengaged, hdead⟩ := hs hp
        refine ⟨?_, fun hlive => ?_⟩
        · rw [engaged_exec, hr]
          exact hengaged
        · rcases live_of_exec hlive with h | ⟨-, hans⟩
          · exact hdead h
          · cases hans
      refine Logic.wp_tryCatch (Logic.wp_bind (Logic.wp_mono
        (Logic.wp_perform (given_stable p) hask hs) ?_))
      rintro r s' ⟨hok, herror⟩
      cases r with
      | ok status =>
          refine ⟨hok status rfl, ?_⟩
          cases status with
          | completed => exact .inl rfl
          | failed => exact .inr rfl
          | active => exact .inr rfl
          | unknown => exact .inr rfl
      | error e =>
          dsimp only
          split
          · rename_i e'
            exact ⟨herror e' rfl, .inr rfl⟩
          · trivial

theorem considerate_reconcileCall (call : Call) {p : Prop} (hp : call.id = callId → p)
    {s : State × Unit} (hs : InHand callId i p s) :
    (considerate callId i cfg).wp i (RecoveryWorker.reconcileCall cfg call)
      (Returns fun _ => InHand callId i p) s := by
  refine wp_bind_returns (considerate_reconcileWithProvider call hs) ?_
  rintro t s₁ ⟨hs₁, ht⟩
  refine wp_bind_returns (wp_sweeping ⟨?_, fun _ => rfl⟩ ?_ hs₁) fun answer s₂ hs₂ => ?_
  · rcases ht with rfl | rfl <;> simp [Op.answers]
  · rintro ⟨hcall, -⟩
    exact hp hcall
  · cases answer with
    | none => exact hs₂
    | some finished =>
        refine wp_bind_returns (f := fun _ => InHand callId i p) ?_ fun _ _ h => h
        refine wp_bind_returns (f := fun _ => InHand callId i p) ?_
          fun _ _ h => considerate_releaseBorrower finished h
        rw [Agents.releaseAgent]
        split
        · exact hs₂
        · exact wp_sweeping ⟨rfl, fun _ => rfl⟩ False.elim hs₂

/-- A look-up that reports the call finds it dead, or the run would not allow it. -/
theorem lookUp_atomic {o : Op} {f : Ans o → Bool} (hans : o.answers callId = false)
    (hends : ¬o.Ends callId) (hreports : ∀ a, o.reports callId (.ok a) = some (f a))
    (hfinds : ∀ ch s a, (exec i o ch s).1 = .ok a → o.finds callId s = f a) :
    (considerate callId i cfg).Atomic i o (fun _ => True)
      (Returns fun a => InHand callId i (f a = true)) := by
  refine considerate_atomic (fun _ _ _ => hends) ?_
  intro ch s hc _
  generalize hr : (exec i o ch s.1).1 = r
  cases r with
  | error e => trivial
  | ok a =>
      intro hfound
      refine ⟨?_, fun hlive => ?_⟩
      · rw [engaged_exec, hr, hreports a, hfound]
        rfl
      · rcases live_of_exec hlive with h | ⟨-, h⟩
        · have hspared := hc.1 h
          rw [hfinds ch s.1 a hr, hfound] at hspared
          cases hspared
        · rw [hans] at h
          cases h

theorem considerate_sweepExpiredAgentLeases (now : Time) (s : State × Unit) :
    (considerate callId i cfg).wp i (RecoveryWorker.sweepExpiredAgentLeases cfg now) Anyhow s := by
  have hfind : (considerate callId i cfg).Atomic i
      (.findExpiredAgentLeases now cfg.recoverySweepLimit)
      (fun _ => True)
      (Returns fun agents => InHand callId i (agents.any (Agent.boundTo callId) = true)) := by
    refine lookUp_atomic rfl id (fun _ => rfl) ?_
    intro ch s agents hr
    rw [← Except.ok.inj (exec_ok hr).1]
    rfl
  refine wp_bind_of_returns (Logic.wp_perform Logic.stable_true hfind trivial) ?_
  refine fun agents s' hs => wp_anyhow (wp_count_returns (fun agent hmem s hs => ?_) hs)
  exact considerate_recoverAgentLease now agent
    (fun h => List.any_eq_true.mpr ⟨agent, hmem, h⟩) hs

theorem considerate_sweepHeartbeatTimeouts (now : Time) (s : State × Unit) :
    (considerate callId i cfg).wp i (RecoveryWorker.sweepHeartbeatTimeouts cfg now) Anyhow s := by
  have hfind : (considerate callId i cfg).Atomic i
      (.findHeartbeatExpired (now - seconds cfg.agentHeartbeatTimeoutSeconds)
      cfg.recoverySweepLimit)
      (fun _ => True)
      (Returns fun agents => InHand callId i (agents.any (Agent.boundTo callId) = true)) := by
    refine lookUp_atomic rfl id (fun _ => rfl) ?_
    intro ch s agents hr
    rw [← Except.ok.inj (exec_ok hr).1]
    rfl
  refine wp_bind_of_returns (Logic.wp_perform Logic.stable_true hfind trivial) ?_
  refine fun agents s' hs => wp_anyhow (wp_count_returns (fun agent hmem s hs => ?_) hs)
  exact considerate_logOutAgent agent (fun h => List.any_eq_true.mpr ⟨agent, hmem, h⟩) hs

theorem considerate_sweepOrphanedCalls (now : Time) (s : State × Unit) :
    (considerate callId i cfg).wp i (RecoveryWorker.sweepOrphanedCalls cfg now) Anyhow s := by
  have hfind : (considerate callId i cfg).Atomic i
      (.findStaleCalls (now - seconds cfg.callStaleTimeoutSeconds) cfg.recoverySweepLimit)
      (fun _ => True)
      (Returns fun calls => InHand callId i ((calls.any fun d => d.id == callId) = true)) := by
    refine lookUp_atomic rfl id (fun _ => rfl) ?_
    intro ch s calls hr
    rw [← Except.ok.inj (exec_ok hr).1]
    rfl
  refine wp_bind_of_returns (Logic.wp_perform Logic.stable_true hfind trivial) ?_
  refine fun calls s' hs => wp_anyhow (wp_count_returns (fun call hmem s hs => ?_) hs)
  have hreported : call.id = callId → (calls.any fun d => d.id == callId) = true := by
    intro hid
    exact List.any_eq_true.mpr ⟨call, hmem, by simpa using hid⟩
  exact considerate_reconcileCall call hreported hs

/-- Where no call is moved, no conversation ends. -/
theorem considerate_still {o : Op} (ho : Op.Outside (fun _ => False) o) :
    (considerate callId i cfg).Atomic i o (fun _ => True) fun _ _ => True := by
  refine considerate_atomic (fun _ _ _ hends => ?_) fun _ _ _ _ => trivial
  cases o with
  | transitionCall _ _ _ => exact ho
  | _ => exact hends

theorem considerate_runSweeps (s : State × Unit) :
    (considerate callId i cfg).wp i (Task.program cfg .runSweeps) Anyhow s := by
  have hnow : Prog.All (Op.Outside fun _ => False) (await .utcNow) := Prog.all_perform trivial
  refine wp_bind_anyhow ?_ fun _ _ => trivial
  refine wp_bind_anyhow (wp_all_anyhow hnow fun _ => considerate_still) fun now s₁ => ?_
  refine wp_bind_anyhow (wp_guarded (considerate_sweepExpiredAgentLeases now s₁))
    fun _ _ => ?_
  refine wp_bind_anyhow (wp_guarded (wp_all_anyhow
    (RecoveryWorker.sweepExpiredBorrowerLeases_outside ..) fun _ => considerate_still))
    fun _ s₂ => ?_
  refine wp_bind_anyhow (wp_guarded (considerate_sweepOrphanedCalls now s₂)) fun _ s₃ => ?_
  refine wp_bind_anyhow (wp_guarded (considerate_sweepHeartbeatTimeouts now s₃)) fun _ _ => ?_
  exact wp_guarded (wp_all_anyhow
    (RecoveryWorker.sweepStuckWrapUps_outside ..) fun _ => considerate_still)

/--
**Recovery spares a conversation it does not find.** In every run in which no look-up of
recovery reports the call while it is ANSWERED or CONNECTED, and it is not answered in the
hands of a sweep: no operation of a recovery run takes it from there to a terminal state.
-/
theorem conversation_spared {w : World (dialer cfg)}
    (h : Started (sparing callId cfg) (fun _ => True) i .runSweeps w) {o : Op} {c : Choice}
    (ho : w.Awaits i o) (hc : (sparing callId cfg).run i o c w.st) (hlive : Live callId w.st) :
    Unended callId (exec i o c w.st).2 := by
  have hprog : ∀ s : State × Unit, (conversation callId cfg).Inv s →
      (considerate callId i cfg).wp i ((dialer cfg).prog .runSweeps) (fun _ _ => True) s :=
    fun s _ => considerate_runSweeps s
  have hcrash : ∀ (s : State × Unit) (γ : Unit), Live callId s.1 →
      Unended callId (crash i s.1) := by
    rintro s _ ⟨d, hd, hstate⟩ d' hd'
    obtain rfl : d = d' := Option.some.inj (hd.symm.trans hd')
    rcases hstate with h | h
    · rw [h]
      rfl
    · rw [h]
      rfl
  have hv : (conversation callId cfg).Verified fun _ => True := conversation_verified
  obtain ⟨_, _, -, hpromise⟩ := hv.promised hprog hcrash h ho hc
  exact hpromise hlive

end

/-! ## Thirty-one seconds -/

/-- A call is answered, and a heartbeat of the agent arrives after 30 seconds. -/
def answeredCall : List (Label (dialer {})) :=
  oneDial ++ .spawn (.processEvent (eventOf "ANSWERED")) :: List.replicate 6 (.run 1 {})
    ++ .spawn (.agentAction "agent" "heartbeat") :: List.replicate 3 (.run 2 { now := 30000 })

/-- What the environment has to say after so many seconds; the provider says ACTIVE. -/
def activeAt (n : Int) : Choice where
  now := seconds n
  callStatus := .ok .active

/-- The call is live, and its agent was heard of a second ago. -/
def TalkingAt31 (s : State) : Prop :=
  Live "call" s ∧ ∃ a ∈ s.agents.get "agent", a.currentCallId = some "call"
    ∧ a.lastHeartbeatAt = some (seconds 30)

instance (s : State) : Decidable (TalkingAt31 s) :=
  inferInstanceAs (Decidable (_ ∧ ∃ a ∈ s.agents.get "agent", _))

/-- The agent's lease, never renewed, has run out, and the conversation is cancelled. -/
theorem conversation_cancelled :
    ∃ w o, Started (Policy.any (dialer {})) Fresh 3 .runSweeps w ∧ w.Awaits 3 o
      ∧ TalkingAt31 w.st ∧ ¬Unended "call" (exec 3 o (activeAt 31) w.st).2 := by
  obtain ⟨w, hw, htest⟩ := Started.of_play (Policy.any (dialer {})) oneAgent_fresh answeredCall
    (List.replicate 3 (.run 3 (activeAt 31))) 3 .runSweeps trivial
    (fun w => (w.awaited 3).any fun o => decide (TalkingAt31 w.st
      ∧ ((exec 3 o (activeAt 31) w.st).2.calls.get "call").map Call.state = some .cancelled))
    (by decide +kernel)
  obtain ⟨o, ho, hrest⟩ := Option.any_eq_true _ _ |>.mp htest
  obtain ⟨htalking, hcancelled⟩ := of_decide_eq_true hrest
  refine ⟨w, o, hw, awaits_of_awaited ho, htalking, fun hunended => ?_⟩
  obtain ⟨d, hd, hstate⟩ := Option.map_eq_some_iff.mp hcancelled
  have := hunended d hd
  rw [hstate] at this
  cases this

/-- A conversation of twenty seconds goes on. -/
theorem conversation_spared_twentySeconds :
    ∃ w o, Started (sparing "call" {}) (fun _ => True) 3 .runSweeps w ∧ Live "call" w.st
      ∧ Unended "call" (exec 3 o (activeAt 20) w.st).2 := by
  obtain ⟨w, hw, htest⟩ : ∃ w, Started (sparing "call" {}) (fun _ => True) 3 .runSweeps w
      ∧ (w.awaited 3).any (fun o => decide (Live "call" w.st
        ∧ (sparing "call" {}).run 3 o (activeAt 20) w.st)) = true :=
    Started.of_play (s := oneAgent) (sparing "call" {}) trivial answeredCall
      (List.replicate 3 (.run 3 (activeAt 20))) 3 .runSweeps trivial
      (fun w => (w.awaited 3).any fun o => decide (Live "call" w.st
        ∧ (sparing "call" {}).run 3 o (activeAt 20) w.st))
      (by decide +kernel)
  obtain ⟨o, ho, hrest⟩ := Option.any_eq_true _ _ |>.mp htest
  obtain ⟨hlive, hrun⟩ := of_decide_eq_true hrest
  exact ⟨w, o, hw, hlive, conversation_spared hw (awaits_of_awaited ho) hrun hlive⟩

end SmartDialer
