import SmartDialer.Protocol.Discipline
import SmartDialer.Protocol.Lifecycle

/-!
# Whose agent an event connects

An event processor moves the call first and the agent after, and in between it reads the
agent again: the version it compares is the one it has just read. So the comparison
protects the agent from what happens after the read, and from nothing that happened
before it. Between the two, another processor may have ended the call, and an allocator
given the agent to another.

Here every process but one does as it pleases, as long as two things do not happen: that
a processor reads an agent that is DIALING for another call than the one it has just
moved, and that an agent somebody has just read is bound to another call. The one is an
event processor, and promises to connect only the agent of its own call.
-/

namespace SmartDialer

open Store Conc

/-! ## The runs -/

/-- The call that process `i` moved with this entry. -/
def Entry.movedCall (i : Nat) : Entry → Option Call
  | .answered j (.transitionCall ..) (.ok answer) => if j = i then answer else none
  | _ => none

/-- The call process `i` moved last. -/
def callInHand (i : Nat) (log : List Entry) : Option Call :=
  log.findSome? (Entry.movedCall i)

/-- Reading this agent, as the last thing a process has done. -/
def Op.readsAgent (agentId : String) : (o : Op) → Except Exn (Ans o) → Option Bool
  | .findAgentById _, .ok (some a) => some (a.id == agentId)
  | _, _ => some false

/-- The operation binds an agent that is DIALING for one call to another. -/
def Op.rebinds (s : State) : Op → Option String
  | .bindCall agentId workerId callId =>
      if (s.agents.get agentId).any (fun a => a.reservedBy == some workerId
        && a.state == .dialing && a.currentCallId.any (· != callId)) then some agentId
      else none
  | _ => none

/-- The operation reads an agent that is DIALING for another call than `d`. -/
def Op.misreads (s : State) (d : Call) : Op → Bool
  | .findAgentById agentId =>
      (s.agents.get agentId).any fun a => a.state == .dialing && a.currentCallId != some d.id
  | _ => false

/--
The runs in which a process that has moved a call to ANSWERED or CONNECTED never finds an
agent DIALING for another, and nobody binds an agent to another call just after somebody
has read it.
-/
def attentive (cfg : Settings) : Policy (dialer cfg) where
  task _ := True
  run i o ch s :=
    (∀ d ∈ callInHand i s.log, agentStateForCallState d.state = some .connected →
      o.misreads s d = false)
    ∧ (ch.performs o = true → ∀ agentId ∈ o.rebinds s, ∀ e ∈ s.log,
      engaged (Op.readsAgent agentId) e.process s.log = false)

instance (cfg : Settings) : (attentive cfg).Checkable where
  task _ := .isTrue trivial
  run _ _ _ _ := inferInstanceAs (Decidable (_ ∧ _))

/-! ## What versions protect -/

section

variable {i : Nat} {o : Op} {ch : Choice} {s : State}

/-- An agent of the same version is in the same state, and bound to the same call or rebound. -/
theorem agent_version {a a' : Agent} (h : Rewritten (o.agentWrite ch) a a') :
    a.stateVersion ≤ a'.stateVersion
      ∧ (a'.stateVersion = a.stateVersion → a'.state = a.state
        ∧ (a'.currentCallId = a.currentCallId
          ∨ ∃ workerId callId, o = .bindCall a.id workerId callId
            ∧ a.reservedBy = some workerId ∧ a'.currentCallId = some callId)) := by
  cases h with
  | same => exact ⟨le_rfl, fun _ => ⟨rfl, .inl rfl⟩⟩
  | written v hv hk hp =>
      cases o, v, hv using Op.agentWrite_cases with
      | tryReserveAgent _ _ _ _ =>
          exact ⟨Nat.le_succ _, fun h => absurd h (Nat.succ_ne_self _)⟩
      | releaseAgent _ _ _ _ _ =>
          exact ⟨Nat.le_succ _, fun h => absurd h (Nat.succ_ne_self _)⟩
      | transitionAgent _ _ _ _ =>
          exact ⟨Nat.le_succ _, fun h => absurd h (Nat.succ_ne_self _)⟩
      | releaseExpiredAgentLease _ _ =>
          exact ⟨Nat.le_succ _, fun h => absurd h (Nat.succ_ne_self _)⟩
      | bindCall agentId workerId callId =>
          obtain rfl : a.id = agentId := hk
          have hby : a.reservedBy = some workerId := by
            simpa [AgentRepository.bindable] using hp
          exact ⟨le_rfl, fun _ => ⟨rfl, .inr ⟨workerId, callId, rfl, hby, rfl⟩⟩⟩
      | heartbeat _ =>
          exact ⟨le_rfl, fun _ => ⟨rfl, .inl rfl⟩⟩

/-- What an operation of process `i` may do to an agent. -/
structure AgentKept (i : Nat) (s : State) (a a' : Agent) : Prop where
  version_le : a.stateVersion ≤ a'.stateVersion
  state_eq : a'.stateVersion = a.stateVersion → a'.state = a.state
  /-- An agent that somebody else has just read, DIALING for a call, is not bound to another. -/
  call_eq : a'.stateVersion = a.stateVersion → a.state = .dialing → ∀ callId,
    a.currentCallId = some callId →
      (∃ j, j ≠ i ∧ engaged (Op.readsAgent a.id) j s.log = true) → a'.currentCallId = some callId

/-- An operation that the runs permit keeps agents. -/
theorem agentKept_exec
    (hbind : ch.performs o = true → ∀ agentId ∈ o.rebinds s, ∀ e ∈ s.log,
      engaged (Op.readsAgent agentId) e.process s.log = false)
    {k : String} {a : Agent} (ha : s.agents.get k = some a) :
    ∃ a', (exec i o ch s).2.agents.get k = some a' ∧ AgentKept i s a a' := by
  obtain rfl : a.id = k := Collection.key_of_get ha
  obtain ⟨a', ha', hrew⟩ := agent_exec (i := i) (o := o) (c := ch) ha
  obtain ⟨hle, hsame⟩ := agent_version hrew
  refine ⟨a', ha', hle, fun hv => (hsame hv).1, ?_⟩
  intro hv hstate callId hcall hread
  obtain ⟨-, hcall' | ⟨workerId, callId', rfl, hby, hcall'⟩⟩ := hsame hv
  · exact hcall'.trans hcall
  · by_cases heq : callId = callId'
    · rw [heq]
      exact hcall'
    · obtain ⟨j, -, hj⟩ := hread
      obtain ⟨e, he, rfl⟩ := mem_of_engaged hj
      by_cases hperf : ch.performs (.bindCall a.id workerId callId') = true
      · have hrebinds : Op.rebinds s (.bindCall a.id workerId callId') = some a.id := by
          simp [Op.rebinds, ha, hby, hstate, hcall, heq]
        have := hbind hperf a.id hrebinds e he
        rw [hj] at this
        cases this
      · -- nothing was written
        rw [exec_of_not_performs (by simpa using hperf)] at ha'
        obtain rfl : a = a' := Option.some.inj (ha.symm.trans ha')
        exact hcall

/-- What a process does leaves the calls that others have in hand. -/
theorem callInHand_exec_other {j : Nat} (hj : j ≠ i) :
    callInHand j (exec i o ch s).2.log = callInHand j s.log := by
  refine findSome?_exec ?_
  generalize (exec i o ch s).1 = r
  cases o with
  | transitionCall _ _ _ =>
      cases r with
      | ok answer => exact if_neg (Ne.symm hj)
      | error e => rfl
  | _ => rfl

/-- An operation that may leave an agent CONNECTED. -/
def Op.Connects : Op → Prop
  | .transitionAgent _ _ toState _ => toState = .connected
  | .releaseAgent _ _ target _ _ => target = .connected
  | _ => False

/-- No agent becomes CONNECTED by anything else. -/
theorem connected_of_exec (ho : ¬o.Connects) {k : String} {a a' : Agent}
    (ha : s.agents.get k = some a) (ha' : (exec i o ch s).2.agents.get k = some a')
    (hconn : a'.state = .connected) : a.state = .connected := by
  obtain ⟨a₁, ha₁, hrew⟩ := agent_of_exec ha'
  obtain rfl : a = a₁ := Option.some.inj (ha.symm.trans ha₁)
  cases hrew with
  | same => exact hconn
  | written v hv hk hp =>
      cases o, v, hv using Op.agentWrite_cases with
      | tryReserveAgent _ _ _ _ =>
          cases hconn
      | releaseAgent _ _ target _ _ =>
          exact absurd hconn ho
      | transitionAgent _ _ toState _ =>
          exact absurd hconn ho
      | releaseExpiredAgentLease _ _ =>
          cases hconn
      | bindCall _ _ _ =>
          exact hconn
      | heartbeat _ =>
          exact hconn

end

/-! ## The logic -/

section

variable {cfg : Settings} {i : Nat}

/-- Calls evolve, agents are kept, and what a process has read and moved is its own. -/
def connection (cfg : Settings) : Logic ((attentive cfg).also Sound) Unit where
  Inv _ := True
  Guar i s s' :=
    CallsEvolve s.1 s'.1
      ∧ (∀ k a, s.1.agents.get k = some a →
          ∃ a', s'.1.agents.get k = some a' ∧ AgentKept i s.1 a a')
      ∧ ∀ j, j ≠ i → callInHand j s'.1.log = callInHand j s.1.log
          ∧ ∀ agentId, engaged (Op.readsAgent agentId) j s'.1.log
            = engaged (Op.readsAgent agentId) j s.1.log

theorem connection_guar {o : Op} {ch : Choice} {s : State × Unit}
    (hc : ((attentive cfg).also Sound).run i o ch s.1) :
    (connection cfg).Guar i s ((exec i o ch s.1).2, ()) := by
  obtain ⟨⟨-, hbind⟩, hsound⟩ := hc
  refine ⟨(exec_evolve i ch hsound.lawful hsound.wellFormed).1, ?_, ?_⟩
  · exact fun k a ha => agentKept_exec hbind ha
  · exact fun j hj => ⟨callInHand_exec_other hj, fun _ => engaged_exec_other hj o ch s.1⟩

/-- Every program obeys the logic: all that is asked is asked of the run. -/
theorem connection_verified {Init : State → Prop} : (connection cfg).Verified Init where
  init s _ := ⟨(), trivial⟩
  task t _ i s _ := by
    refine wp_all_anyhow (R := fun _ => True) (Prog.all_of_forall (fun _ => trivial) _) ?_
    intro o _ s _ _ ch hc
    exact ⟨(), trivial, connection_guar hc, trivial⟩
  crash i s _ := by
    refine ⟨(), trivial, .of_calls_eq rfl, ?_, fun j hj => ⟨rfl, fun agentId => ?_⟩⟩
    · exact fun k a ha => ⟨a, ha, le_rfl, fun _ => rfl, fun _ _ _ hcall _ => hcall⟩
    · exact engaged_crash_other hj s.1

/-- The call the event is about: it has the provider call id of the event. -/
def IsCallOf (event : ProviderEvent) (callId : String) (s : State) : Prop :=
  ∃ d, s.calls.get callId = some d ∧ d.providerName = event.providerName
    ∧ d.providerCallId = some event.providerCallId

theorem IsCallOf.mono {event : ProviderEvent} {callId : String} {s s' : State}
    (h : IsCallOf event callId s) (hev : CallsEvolve s s') : IsCallOf event callId s' := by
  obtain ⟨d, hd, hname, hid⟩ := h
  obtain ⟨d', hd', hevolves⟩ := hev.kept _ _ hd
  refine ⟨d', hd', hevolves.providerName.trans hname, ?_⟩
  rw [hevolves.attached (by rw [hid]; rfl), hid]

/-- An agent that becomes CONNECTED is bound to the call of the event. -/
def ConnectsOwn (event : ProviderEvent) (s s' : State) : Prop :=
  ∀ k a a', s.agents.get k = some a → s'.agents.get k = some a' → a.state ≠ .connected →
    a'.state = .connected → ∃ callId, IsCallOf event callId s ∧ a'.currentCallId = some callId

/-- The logic in which process `i`, which processes `event`, connects its own agent only. -/
def connecting (event : ProviderEvent) (i : Nat) (cfg : Settings) :
    Logic ((attentive cfg).also Sound) Unit :=
  (connection cfg).promising i fun s s' => ConnectsOwn event s.1 s'.1

variable {event : ProviderEvent}

/-- The triple of an operation that connects nobody. -/
theorem aside_atomic {o : Op} (ho : ¬o.Connects) {A : Assertion Unit}
    {B : Except Exn (Ans o) → Assertion Unit}
    (hB : ∀ ch s, ((attentive cfg).also Sound).run i o ch s.1 → A s →
      CallsEvolve s.1 (exec i o ch s.1).2 → B (exec i o ch s.1).1 ((exec i o ch s.1).2, ())) :
    (connecting event i cfg).Atomic i o A B := by
  intro s _ hs ch hc
  have hguar := connection_guar hc
  refine ⟨(), trivial, ⟨hguar, fun _ => ?_⟩, hB ch s hc hs hguar.1⟩
  intro k a a' ha ha' hne hconn
  exact absurd (connected_of_exec ho ha ha' hconn) hne

theorem aside_all {α : Type} {p : Async α} (hp : p.All fun o : Op => ¬o.Connects)
    {s : State × Unit} :
    (connecting event i cfg).wp i p Anyhow s :=
  wp_all_anyhow hp fun _ ho => aside_atomic ho fun _ _ _ _ _ => trivial

theorem isCallOf_stable (callId : String) :
    (connecting event i cfg).Stable i fun s => IsCallOf event callId s.1 :=
  Logic.Stable.promising (Logic.stable_of_step fun _ _ _ _ hg _ h => h.mono hg.1)

/-- Process `i` has just moved the call. -/
def HasMoved (i : Nat) (event : ProviderEvent) (call : Call) : Assertion Unit := fun s =>
  IsCallOf event call.id s.1 ∧ callInHand i s.1.log = some call

theorem hasMoved_stable (call : Call) :
    (connecting event i cfg).Stable i (HasMoved i event call) := by
  refine Logic.Stable.promising (Logic.stable_of_step ?_)
  rintro j s s' hj ⟨hev, -, hlog⟩ - ⟨hcall, hhand⟩
  exact ⟨hcall.mono hev, (hlog i hj.symm).1.trans hhand⟩

/-- Process `i` has just read the agent; if it was DIALING, it was for the call. -/
def HasRead (i : Nat) (event : ProviderEvent) (callId : String) (agent : Agent) :
    Assertion Unit := fun s =>
  IsCallOf event callId s.1 ∧ engaged (Op.readsAgent agent.id) i s.1.log = true
    ∧ ∃ a, s.1.agents.get agent.id = some a ∧ agent.stateVersion ≤ a.stateVersion
      ∧ (a.stateVersion = agent.stateVersion → a.state = agent.state
        ∧ (agent.state = .dialing → a.currentCallId = some callId))

theorem hasRead_stable (callId : String) (agent : Agent) :
    (connecting event i cfg).Stable i (HasRead i event callId agent) := by
  refine Logic.Stable.promising (Logic.stable_of_step ?_)
  rintro j s s' hj ⟨hev, hagents, hlog⟩ - ⟨hcall, hread, a, ha, hle, hsame⟩
  obtain ⟨a', ha', hkept⟩ := hagents _ a ha
  refine ⟨hcall.mono hev, ((hlog i hj.symm).2 _).trans hread, a', ha',
    hle.trans hkept.version_le, fun hv => ?_⟩
  have hold : a.stateVersion = agent.stateVersion :=
    le_antisymm (hkept.version_le.trans hv.le) hle
  obtain ⟨hstate, hbound⟩ := hsame hold
  refine ⟨(hkept.state_eq (hv.trans hold.symm)).trans hstate, fun hdial => ?_⟩
  refine hkept.call_eq (hv.trans hold.symm) (hstate.trans hdial) callId (hbound hdial) ?_
  rw [show a.id = agent.id from Collection.key_of_get ha]
  exact ⟨i, hj.symm, hread⟩

/-! ## The event processor -/

/-- What surrounds the agent's transition connects nobody. -/
theorem releaseBorrower_aside (call : Call) (t : CallState) :
    (EventProcessor.releaseBorrower cfg call t).All fun o : Op => ¬o.Connects :=
  Prog.all_bind (Prog.all_perform id) fun _ => trivial

/-- A call that is not answered does not connect its agent. -/
theorem applyAgentTransition_aside (call : Call) {t : CallState}
    (ht : agentStateForCallState t ≠ some .connected) :
    (EventProcessor.applyAgentTransition call t).All fun o : Op => ¬o.Connects := by
  rw [EventProcessor.applyAgentTransition]
  split
  · trivial
  · rename_i agentState hstate
    have hne : agentState ≠ .connected := by
      rintro rfl
      exact ht hstate
    refine Prog.all_bind (Prog.all_perform id) fun found => ?_
    cases found with
    | none => trivial
    | some agent =>
        dsimp only
        split
        · trivial
        · split
          · refine Prog.all_bind ?_ fun _ => trivial
            rw [Agents.releaseAgent]
            split
            · trivial
            · exact Prog.all_perform hne
          · refine Prog.all_tryCatch (Prog.all_bind ?_ fun _ => trivial) fun e => ?_
            · rw [Agents.transitionAgent]
              split
              · trivial
              · exact Prog.all_perform hne
            · cases e <;> trivial

/-- An event processor connects no agent but one that is DIALING. -/
theorem dialing_of_connects {f : AgentState} {u : Unit}
    (h : validateTransition f .connected .eventProcessor = .ok u) : f = .dialing := by
  obtain ⟨-, hallowed⟩ := validateTransition_ok h
  cases f <;> first | rfl | cases hallowed

/-- The agent is as the processor read it, or is not changed. -/
theorem connectsOwn_transitionAgent {ch : Choice} {s : State × Unit} {callId : String}
    {agent : Agent} (hs : HasRead i event callId agent s) (hdial : agent.state = .dialing) :
    ConnectsOwn event s.1
      (exec i (.transitionAgent agent.id agent.state .connected agent.stateVersion) ch s.1).2 := by
  obtain ⟨hcall, -, a₀, ha₀, -, hsame⟩ := hs
  intro k a a' ha ha' hne hconn
  obtain ⟨a₁, ha₁, hrew⟩ := agent_of_exec ha'
  obtain rfl : a = a₁ := Option.some.inj (ha.symm.trans ha₁)
  cases hrew with
  | same => exact absurd hconn hne
  | written v hv hk hp =>
      -- the guarded write went through, so the version is still the one that was read
      obtain rfl := Option.some.inj hv
      have hid : agent.id = k := hk.symm.trans (Collection.key_of_get ha)
      rw [hid, ha] at ha₀
      obtain rfl := Option.some.inj ha₀
      obtain ⟨-, hversion⟩ := AgentRepository.movable_iff.mp hp
      refine ⟨callId, hcall, ?_⟩
      have hbound : a.currentCallId = some callId := (hsame hversion).2 hdial
      simpa [AgentRepository.move] using hbound

/-- The transition of the agent, by a process that has just moved the call. -/
theorem connecting_applyAgentTransition {call : Call} {t : CallState} (ht : call.state = t)
    {s : State × Unit} (hs : HasMoved i event call s) :
    (connecting event i cfg).wp i (EventProcessor.applyAgentTransition call t) Anyhow s := by
  by_cases hconn : agentStateForCallState t = some .connected
  · have hread : (connecting event i cfg).Atomic i (.findAgentById call.agentId)
        (HasMoved i event call)
        (fun r s => ∀ agent, r = .ok (some agent) → HasRead i event call.id agent s) := by
      refine aside_atomic id ?_
      intro ch s hc hs hev agent hr
      obtain ⟨heff, -⟩ := exec_ok hr
      have ha : s.1.agents.get call.agentId = some agent := Except.ok.inj heff
      have hid : agent.id = call.agentId := Collection.key_of_get ha
      have hagents : (exec i (.findAgentById call.agentId) ch s.1).2.agents = s.1.agents :=
        agents_of_ok hr
      refine ⟨hs.1.mono hev, ?_, agent, ?_, le_rfl, fun _ => ⟨rfl, fun hdial => ?_⟩⟩
      · rw [engaged_exec, hr]
        simp [Op.readsAgent]
      · rw [hagents, hid]
        exact ha
      · -- the run does not let the processor read an agent that dials for another
        have hattentive := hc.1.1 call hs.2 (by rw [ht]; exact hconn)
        by_contra hne
        have hmisreads : Op.misreads s.1 call (.findAgentById call.agentId) = true := by
          simp [Op.misreads, ha, hdial, hne]
        rw [hattentive] at hmisreads
        cases hmisreads
    -- a call that is answered or connected is not over
    have hnot : agentReleasingCallStates.contains t = false := by
      revert hconn
      cases t <;> decide
    rw [EventProcessor.applyAgentTransition, hconn]
    refine Logic.wp_bind (Logic.wp_mono
      (Logic.wp_perform (hasMoved_stable call) hread hs) ?_)
    intro r s' hr
    cases r with
    | error e => trivial
    | ok found =>
        cases found with
        | none => trivial
        | some agent =>
            dsimp only
            split
            · trivial
            · rw [hnot, if_neg Bool.false_ne_true]
              refine wp_tryCatch_anyhow (wp_bind_anyhow ?_ fun _ _ => trivial) fun e s'' => ?_
              · rw [Agents.transitionAgent]
                split
                · trivial
                · rename_i hvalid
                  have hmove : (connecting event i cfg).Atomic i
                      (.transitionAgent agent.id agent.state .connected agent.stateVersion)
                      (HasRead i event call.id agent) (fun _ _ => True) := by
                    intro s _ hs ch hc
                    refine ⟨(), trivial, ⟨connection_guar hc, fun _ => ?_⟩, trivial⟩
                    exact connectsOwn_transitionAgent hs (dialing_of_connects hvalid)
                  exact wp_anyhow (Logic.wp_perform (hasRead_stable call.id agent) hmove
                    (hr agent rfl))
              · cases e <;> trivial
  · exact aside_all (applyAgentTransition_aside call hconn)

/-- A processor moves the call of its event, and then connects the agent of that call at most. -/
theorem connecting_event (event : ProviderEvent) :
    EventOutline (connecting event i cfg) i event (fun callId s => IsCallOf event callId s.1)
      (fun t call s => call.state = t ∧ HasMoved i event call s) fun _ _ _ => True where
  stable := isCallOf_stable
  record := aside_atomic id fun _ _ _ _ _ => trivial
  find := by
    refine aside_atomic id ?_
    intro ch s _ _ hev call hr
    obtain ⟨hget, hname, hid⟩ := findByProviderCallId_some hr
    exact IsCallOf.mono ⟨call, hget, hname, hid⟩ hev
  move callId t reason := by
    refine aside_atomic id ?_
    intro ch s _ hs hev updated hr
    obtain ⟨d, hd, -, rfl, -⟩ := transitionCall_some hr
    have hid : d.id = callId := Collection.key_of_get hd
    refine ⟨rfl, ?_, ?_⟩
    · exact hid ▸ hs.mono hev
    · rw [exec_log, hr]
      simp [callInHand, Entry.movedCall]
  agent t call s h := returns_of_anyhow (connecting_applyAgentTransition h.1 h.2)
    fun _ _ => trivial
  borrower t call s _ _ := aside_all (releaseBorrower_aside call t)
  finish _ _ := aside_atomic id fun _ _ _ _ _ => trivial

/--
**Events act on the agent of their own call.** In every run in which processors do not read
an agent that is DIALING for another call than the one they have moved, and nobody rebinds
an agent that somebody has just read: whenever the processing of an event leaves an agent
CONNECTED that was not, the agent is bound to the call of the event.
-/
theorem event_connects_own {w : World (dialer cfg)}
    (h : Started (attentive cfg) CallsWellFormed i (.processEvent event) w) {o : Op} {c : Choice}
    (ho : w.Awaits i o) (hc : (attentive cfg).run i o c w.st) :
    ConnectsOwn event w.st (exec i o c w.st).2 := by
  have hsound : ∀ w, Reachable (attentive cfg) CallsWellFormed w →
      ∀ i o, w.Awaits i o → Sound w.st o := by
    intro w hw i o hi
    obtain ⟨hwf, hlaw⟩ := lifecycle_reachable (hw.unrestricted fun _ h => h)
    exact ⟨hwf, hlaw i o hi⟩
  have hprog : ∀ s : State × Unit, (connection cfg).Inv s → (connecting event i cfg).wp i
      ((dialer cfg).prog (.processEvent event)) (fun _ _ => True) s :=
    fun s _ => wp_bind_anyhow ((connecting_event event).wp_processEvent s) fun _ _ => trivial
  have hcrash : ∀ (s : State × Unit) (γ : Unit), ConnectsOwn event s.1 (crash i s.1) := by
    intro s _ k a a' ha ha' hne hconn
    obtain rfl : a = a' := Option.some.inj (ha.symm.trans ha')
    exact absurd hconn hne
  have hv : (connection cfg).Verified CallsWellFormed := connection_verified
  obtain ⟨_, _, -, hpromise⟩ := hv.promised hprog hcrash (h.also hsound) ho
    ⟨hc, hsound w h.reachable i o ho⟩
  exact hpromise

end

/-! ## A processor that lags behind -/

/--
The call is ANSWERED, and before its processor has read the agent the call has failed, and
the agent is DIALING for another.
-/
def overtaken : List (Label (dialer {})) :=
  List.replicate 3 (.run 1 {})
    ++ .spawn (.processEvent (eventOf "FAILED")) :: List.replicate 7 (.run 2 {})
    ++ dialOnce :: dialSchedule 0 3 "second-call" "second-provider-call" ++ [.run 1 {}]

/-- The agent of the second call is CONNECTED by an event of the first. -/
theorem event_connects_other :
    ∃ w o, Started (Policy.any (dialer {})) CallsWellFormed 1 (.processEvent (eventOf "ANSWERED")) w
      ∧ w.Awaits 1 o ∧ ¬ConnectsOwn (eventOf "ANSWERED") w.st (exec 1 o {} w.st).2 := by
  obtain ⟨w, hw, htest⟩ := Started.of_play (Policy.any (dialer {}))
    oneAgent_fresh.noCalls.wellFormed oneDial overtaken 1 (.processEvent (eventOf "ANSWERED"))
    trivial
    (fun w => (w.awaited 1).any fun o =>
      decide ((w.st.agents.get "agent").map Agent.state = some .dialing
        ∧ ((exec 1 o {} w.st).2.agents.get "agent").map Agent.state = some .connected
        ∧ ((exec 1 o {} w.st).2.agents.get "agent").bind Agent.currentCallId
          = some "second-call"
        ∧ (w.st.calls.get "second-call").bind Call.providerCallId
          = some "second-provider-call"))
    (by decide +kernel)
  obtain ⟨o, ho, hrest⟩ := Option.any_eq_true _ _ |>.mp htest
  obtain ⟨hbefore, hafter, hbound, hother⟩ := of_decide_eq_true hrest
  refine ⟨w, o, hw, awaits_of_awaited ho, fun hown => ?_⟩
  obtain ⟨a, ha, hdial⟩ := Option.map_eq_some_iff.mp hbefore
  obtain ⟨a', ha', hconn⟩ := Option.map_eq_some_iff.mp hafter
  have hne : a.state ≠ .connected := by
    rw [hdial]
    decide
  obtain ⟨callId, ⟨d, hd, -, hid⟩, hcall⟩ := hown "agent" a a' ha ha' hne hconn
  rw [ha', Option.bind_some, hcall] at hbound
  obtain rfl := Option.some.inj hbound
  rw [hd, Option.bind_some, hid] at hother
  exact absurd hother (by decide)

/-- An event that is not overtaken connects the agent of its call. -/
theorem event_connects_own_oneDial :
    ∃ w o, Started (attentive {}) CallsWellFormed 1 (.processEvent (eventOf "ANSWERED")) w
      ∧ ((exec 1 o {} w.st).2.agents.get "agent").map Agent.state = some .connected
      ∧ ConnectsOwn (eventOf "ANSWERED") w.st (exec 1 o {} w.st).2 := by
  obtain ⟨w, hw, htest⟩ := Started.of_play (attentive {})
    oneAgent_fresh.noCalls.wellFormed oneDial (List.replicate 4 (.run 1 {})) 1
    (.processEvent (eventOf "ANSWERED")) trivial
    (fun w => (w.awaited 1).any fun o => decide ((attentive {}).run 1 o {} w.st
      ∧ ((exec 1 o {} w.st).2.agents.get "agent").map Agent.state = some .connected))
    (by decide +kernel)
  obtain ⟨o, ho, hrest⟩ := Option.any_eq_true _ _ |>.mp htest
  obtain ⟨hrun, hconn⟩ := of_decide_eq_true hrest
  exact ⟨w, o, hw, hconn, event_connects_own hw (awaits_of_awaited ho) hrun⟩

end SmartDialer
