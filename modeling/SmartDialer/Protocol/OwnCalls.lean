import SmartDialer.Protocol.BoundCalls
import SmartDialer.Protocol.Ownership

/-!
# Agents are bound to calls that name them

`bind_call` does not look at the call. That the call it binds names the agent is because of
what `create_call` answered: a call it has just inserted for the agent, or one it found under
the key of the attempt. A key tells the agent of an attempt as long as no id has a colon in it,
and ids as `new_id` makes them have none.

So whoever is bound to a call is the agent that the call names, in every run, with recovery and
with failures anywhere.
-/

namespace SmartDialer

open Store Conc

/-! ## Statement -/

/-- The call is there, and names the agent. -/
def NamesAgent (s : State) (callId agentId : String) : Prop :=
  ∃ d, s.calls.get callId = some d ∧ d.agentId = agentId

/-- Whoever is bound to a call is the agent that the call names. -/
def BoundToOwn (s : State) : Prop :=
  ∀ k a, s.agents.get k = some a → ∀ callId ∈ a.currentCallId, NamesAgent s callId k

/-- Calls are well formed, ids are as `new_id` makes them, and agents have calls of their own. -/
structure Orderly (s : State) : Prop where
  calls : CallsWellFormed s
  ids : IdsColonFree s
  bound : BoundToOwn s

/-- The runs for campaigns whose ids are as `new_id` makes them. -/
def newIds (cfg : Settings) : Policy (dialer cfg) where
  task
    | .tick campaign _ _ | .allocate campaign _ _ => ColonFree campaign.id
    | _ => True
  run _ _ _ _ := True

instance (cfg : Settings) : (newIds cfg).Checkable where
  task
    | .tick campaign _ _ => inferInstanceAs (Decidable (ColonFree campaign.id))
    | .allocate campaign _ _ => inferInstanceAs (Decidable (ColonFree campaign.id))
    | .processEvent _ | .runSweeps | .releaseFinishedWrapUps _ | .agentAction _ _ => .isTrue trivial
  run _ _ _ _ := .isTrue trivial

/-! ## One operation -/

section

variable {i : Nat} {o : Op} {ch : Choice} {s : State}

theorem NamesAgent.mono {s s' : State} {callId agentId : String} (h : NamesAgent s callId agentId)
    (hs : CallsEvolve s s') : NamesAgent s' callId agentId := by
  obtain ⟨d, hd, hagent⟩ := h
  obtain ⟨d', hd', hev⟩ := hs.kept _ _ hd
  exact ⟨d', hd', hev.agentId.trans hagent⟩

/-- A call is bound to the agent it names. -/
def Op.BindsOwn (s : State) : Op → Prop
  | .bindCall agentId _ callId => NamesAgent s callId agentId
  | _ => True

theorem boundToOwn_exec (hev : CallsEvolve s (exec i o ch s).2) (ho : o.BindsOwn s)
    (h : BoundToOwn s) : BoundToOwn (exec i o ch s).2 := by
  intro k a' ha' callId hcall
  obtain ⟨a, ha, hre⟩ := agent_of_exec ha'
  have hkept : a'.currentCallId = a.currentCallId → NamesAgent (exec i o ch s).2 callId k :=
    fun heq => (h k a ha callId (heq ▸ hcall)).mono hev
  cases hre with
  | same => exact hkept rfl
  | written w hw hk hp =>
      cases o, w, hw using Op.agentWrite_cases with
      | tryReserveAgent _ _ _ _ => exact hkept rfl
      | releaseAgent _ _ _ _ _ => cases hcall
      | transitionAgent _ _ _ _ =>
          exact hkept (AgentRepository.timeAccountingUpdates_currentCallId ..)
      | bindCall agentId _ callId' =>
          obtain rfl : callId' = callId := Option.some.inj hcall
          obtain rfl : a.id = k := Collection.key_of_get ha
          obtain rfl : a.id = agentId := hk
          exact NamesAgent.mono ho hev
      | releaseExpiredAgentLease _ _ => cases hcall
      | heartbeat _ => exact hkept rfl

end

/-! ## The logic -/

section

variable {cfg : Settings} {i : Nat} {o : Op}

/-- Agents are bound to calls of their own, as long as calls evolve. -/
def binding (cfg : Settings) : Logic ((newIds cfg).also Sound) Unit where
  Inv s := IdsColonFree s.1 ∧ BoundToOwn s.1
  Guar _ s s' := CallsEvolve s.1 s'.1

/-- The triple of an operation. -/
theorem binding_atomic {A : Assertion Unit} {B : Except Exn (Ans o) → Assertion Unit}
    (hins : ∀ s ch d, A s → o.callInsert ch = some d →
      ColonFree d.campaignId ∧ ColonFree d.agentId ∧ ColonFree d.borrowerId)
    (hbind : ∀ s, A s → o.BindsOwn s.1)
    (hB : ∀ ch s, A s → Sound s.1 o → IdsColonFree s.1 → CallsEvolve s.1 (exec i o ch s.1).2 →
      B (exec i o ch s.1).1 ((exec i o ch s.1).2, ())) :
    (binding cfg).Atomic i o A B := by
  rintro s ⟨hids, hbound⟩ hs ch ⟨-, hsound⟩
  have hev := (exec_evolve i ch hsound.lawful hsound.wellFormed).1
  exact ⟨(), ⟨idsColonFree_exec hsound (fun d => hins s ch d hs) hids,
    boundToOwn_exec hev (hbind s hs) hbound⟩, hev, hB ch s hs hsound hids hev⟩

/-- An operation that inserts no call and binds none. -/
theorem binding_other {A : Assertion Unit} {B : Except Exn (Ans o) → Assertion Unit}
    (hins : ∀ ch, o.callInsert ch = none) (hbind : ∀ s : State, o.BindsOwn s)
    (hB : ∀ ch s, A s → IdsColonFree s.1 → CallsEvolve s.1 (exec i o ch s.1).2 →
      B (exec i o ch s.1).1 ((exec i o ch s.1).2, ())) :
    (binding cfg).Atomic i o A B := by
  refine binding_atomic (fun _ ch d _ h => ?_) (fun s _ => hbind s.1) fun ch s hs _ => hB ch s hs
  rw [hins ch] at h
  cases h

/-- Outside dials, nothing is inserted and nothing is bound. -/
theorem binding_outside {T : CallState → Prop} (ho : Op.Outside T o) :
    (binding cfg).Atomic i o (fun _ => True) fun _ _ => True := by
  refine binding_other (fun ch => ?_) (fun s => ?_) fun _ _ _ _ _ => trivial
  · cases o with
    | insertCall _ _ _ _ _ _ => exact ho.elim
    | _ => rfl
  · cases o with
    | bindCall _ _ _ => exact ho.elim
    | _ => trivial

/-! ## Dials -/

/-- Neither the agent nor the borrower has a colon in the id. -/
def ReservationPair.ColonFree (pair : ReservationPair) : Prop :=
  SmartDialer.ColonFree pair.agent.id ∧ SmartDialer.ColonFree pair.borrower.id

/-- Until it has a call, a dial knows its pair; until it has bound the call, whom it names. -/
def bindingPoints (pair : ReservationPair) : DialPoint → Assertion Unit
  | .held => fun _ => pair.ColonFree
  | .created callId | .initiated callId | .dialing callId =>
      fun s => NamesAgent s.1 callId pair.agent.id
  | _ => fun _ => True

/-- What calls that evolve keep. -/
theorem bindingPoints_mono {pair : ReservationPair} (p : DialPoint) {s s' : State × Unit}
    (hev : CallsEvolve s.1 s'.1) (h : bindingPoints pair p s) : bindingPoints pair p s' := by
  cases p with
  | held => exact h
  | created _ => exact h.mono hev
  | initiated _ => exact h.mono hev
  | dialing _ => exact h.mono hev
  | _ => trivial

/-- An operation leads to every point that asserts no more. -/
theorem binding_next {pair : ReservationPair} {p q : DialPoint}
    (hins : ∀ ch, o.callInsert ch = none)
    (hbind : ∀ s, bindingPoints pair p s → o.BindsOwn s.1)
    (hpq : ∀ s, bindingPoints pair p s → bindingPoints pair q s) :
    (binding cfg).Atomic i o (bindingPoints pair p)
      (Next (bindingPoints pair) fun _ => bindingPoints pair q) := by
  refine binding_atomic (fun _ ch d _ h => ?_) hbind fun ch s hs _ _ hev => ?_
  · rw [hins ch] at h
    cases h
  · have hkept : bindingPoints pair p ((exec i o ch s.1).2, ()) := bindingPoints_mono p hev hs
    exact next_of (fun _ _ => hpq _ hkept) trivial

/-- A call that was found under the key of the attempt names the agent. -/
theorem agentId_of_key {campaign : Campaign} {pair : ReservationPair} {d : Call} {s : State}
    {attempt : Nat} (hid : ColonFree campaign.id) (hpair : pair.ColonFree) (hids : IdsColonFree s)
    (hwf : CallsWellFormed s) (hd : s.calls.get d.id = some d)
    (hkey : d.idempotencyKey
      = buildIdempotencyKey campaign.id pair.agent.id pair.borrower.id attempt) :
    d.agentId = pair.agent.id := by
  obtain ⟨hcampaign, hagent, hborrower⟩ := hids.calls _ _ hd
  rw [(hwf _ _ hd).key_eq] at hkey
  exact (buildIdempotencyKey_inj hcampaign hid hagent hpair.1 hborrower hpair.2 hkey).2.1

theorem binding_dial (campaign : Campaign) (hid : ColonFree campaign.id)
    (pair : ReservationPair) :
    DialOutline (binding cfg) i campaign pair (bindingPoints pair) where
  stable p := Logic.stable_of_step fun _ _ _ _ hev _ h => bindingPoints_mono p hev h
  now := binding_next (p := .held) (fun _ => rfl) (fun _ _ => trivial) fun _ h => h
  gate := binding_next (p := .held) (fun _ => rfl) (fun _ _ => trivial) fun _ h => h
  abandon _ _ := trivial
  releaseAgent _ :=
    binding_next (p := .abandoned _) (fun _ => rfl) (fun _ _ => trivial) fun _ _ => trivial
  releaseBorrower _ :=
    binding_next (p := .halfReleased _) (fun _ => rfl) (fun _ _ => trivial) fun _ _ => trivial
  insert := by
    refine binding_atomic ?_ ?_ ?_
    · intro _ _ d hpair hins
      obtain rfl := Option.some.inj hins
      exact ⟨hid, hpair⟩
    · exact fun _ _ => trivial
    · intro ch s hpair _ _ _
      refine onInsert_of (fun call heq => onCall_of call (fun _ => ?_) fun _ => trivial)
        (fun _ => hpair) trivial
      obtain ⟨hnew, -, -, hget⟩ := insertCall_ok heq
      exact ⟨call, hget, by rw [hnew]; rfl⟩
  existing := by
    refine binding_atomic ?_ ?_ ?_
    · exact fun _ _ _ _ h => by cases h
    · exact fun _ _ => trivial
    · intro ch s hpair hsound hids hev
      refine next_of (fun answer heq => ?_) trivial
      cases answer with
      | none => trivial
      | some call =>
          refine onCall_of call (fun _ => ?_) fun _ => trivial
          obtain ⟨hget, hkey⟩ := findByIdempotencyKey_some heq
          exact NamesAgent.mono
            ⟨call, hget, agentId_of_key hid hpair hids hsound.wellFormed hget hkey⟩ hev
  reserve _ := binding_next (p := .created _) (fun _ => rfl) (fun _ _ => trivial) fun _ h => h
  initiate callId := by
    refine binding_other ?_ ?_ ?_
    · exact fun _ => rfl
    · exact fun _ => trivial
    · intro ch s h _ hev
      refine next_of (fun answer _ => ?_) trivial
      cases answer with
      | none => trivial
      | some _ => exact NamesAgent.mono h hev
  dialAgent _ := binding_next (p := .initiated _) (fun _ => rfl) (fun _ _ => trivial) fun _ h => h
  bind _ := binding_next (p := .dialing _) (fun _ => rfl) (fun _ h => h) fun _ _ => trivial
  originate _ := binding_other (fun _ => rfl) (fun _ => trivial) fun _ _ _ _ _ =>
    onOriginate_of (fun _ => trivial) (fun _ => trivial) trivial
  attach _ _ := by
    refine binding_other ?_ ?_ ?_
    · exact fun _ => rfl
    · exact fun _ => trivial
    · exact fun _ _ _ _ _ => next_of (fun answer _ => by cases answer <;> trivial) trivial
  hangup _ _ := binding_other (fun _ => rfl) (fun _ => trivial) fun _ _ _ _ _ =>
    onHangup_of (fun _ => trivial) trivial
  fail _ _ := binding_next (p := .refused _) (fun _ => rfl) (fun _ _ => trivial) fun _ _ => trivial
  compensateAgent := binding_other (fun _ => rfl) (fun _ => trivial) fun _ _ _ _ _ => trivial
  compensateBorrower := binding_other (fun _ => rfl) (fun _ => trivial) fun _ _ _ _ _ => trivial

/-- Whoever is reserved is on file. -/
theorem binding_allocate (campaign : Campaign) (hid : ColonFree campaign.id) (workerId : String) :
    AllocateOutline (binding cfg) i campaign workerId (fun _ _ => True)
      (fun _ agent _ => ColonFree agent.id) fun _ pair => bindingPoints pair where
  skip _ _ _ := trivial
  reserve _ :=
    { stable_idle := Logic.stable_true
      stable_claimed := fun _ => Logic.stable_const _
      findAgents := binding_other (fun _ => rfl) (fun _ => trivial)
        fun _ _ _ _ _ => unless_of fun _ => trivial
      claimAgent := fun _ => by
        refine binding_other ?_ ?_ ?_
        · exact fun _ => rfl
        · exact fun _ => trivial
        · intro ch s _ hids _
          refine onClaim_of (fun agent heq => ?_) fun _ => trivial
          obtain ⟨a, ha, -⟩ := tryReserveAgent_some heq
          exact hids.agents _ _ ha
      findBorrowers := fun _ => binding_other (fun _ => rfl) (fun _ => trivial)
        fun _ _ hagent _ _ => unless_of fun _ => hagent
      claimBorrower := fun agent _ => by
        refine binding_other ?_ ?_ ?_
        · exact fun _ => rfl
        · exact fun _ => trivial
        · intro ch s hagent hids _
          refine onClaim_of (fun borrower heq => ?_) fun _ => hagent
          obtain ⟨b, hb, -⟩ := tryReserveBorrower_some heq
          exact ⟨hagent, hids.borrowers _ _ hb⟩
      giveBack := fun _ => binding_other (fun _ => rfl) (fun _ => trivial)
        fun _ _ _ _ _ => unless_of fun _ => trivial }
  dial _ := binding_dial campaign hid
  done _ _ _ _ := trivial

/-! ## Every run -/

theorem binding_verified : (binding cfg).Verified Orderly where
  init _ hs := ⟨(), hs.ids, hs.bound⟩
  task t ht i s _ := by
    refine wp_task_of (T := (newIds cfg).task) ?_ ?_ ?_ ?_ t ht s
    · exact fun _ ho => binding_outside (T := fun _ => True) ho.outside
    · intro campaign workerId hid approved s
      have hcampaign : ColonFree campaign.id := by
        rcases hid with ⟨_, hid⟩ | ⟨_, hid⟩
        · exact hid
        · exact hid
      exact wp_anyhow ((binding_allocate campaign hcampaign workerId).wp_allocateLoop _ _ _ trivial)
    · exact fun event s => wp_all_anyhow (EventProcessor.processEvent_outside
        (T := fun _ => True) (fun _ _ => trivial) cfg event) fun _ => binding_outside
    · exact fun _ s => wp_all_anyhow (RecoveryWorker.runSweeps_outside
        (T := fun _ => True) (fun _ _ => trivial) cfg) fun _ => binding_outside
  crash _ _ hinv := ⟨(), ⟨⟨hinv.1.agents, hinv.1.borrowers, hinv.1.calls⟩, hinv.2⟩,
    .of_calls_eq rfl⟩

/-- **Agents are bound to calls that name them**, in every run, of any tasks in any interleaving. -/
theorem boundToOwn_reachable {w : World (dialer cfg)} (h : Reachable (newIds cfg) Orderly w) :
    BoundToOwn w.st := by
  obtain ⟨_, -, hbound⟩ := binding_verified.inv (sound_run (fun _ hs => hs.calls) h)
  exact hbound

end

end SmartDialer
