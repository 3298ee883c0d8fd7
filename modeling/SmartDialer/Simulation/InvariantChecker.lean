import SmartDialer.Protocol.Parties
import SmartDialer.Store.LastSeen

/-!
# The oracle of the simulation

`app/simulation/invariants.py`. While a simulation runs, the checker asks the database again and
again whether an agent or a borrower is in two calls, and whether there are more calls than
agents to take them; every verdict of a simulation rests on what it says.

The search for duplicates is a pass over the active calls with a table of who was seen last, and
is an instance of `Store.LastSeen`. The checker awaits its readings one by one, while the dialer
goes on; so what it says is about the moments at which it read.
-/

namespace SmartDialer

open Store Conc

/-! ## Violations -/

/-- `INVARIANT_AGENT_DOUBLE_BOOKED`. -/
def invariantAgentDoubleBooked : String := "agent_bound_to_two_active_calls"

/-- `INVARIANT_BORROWER_DOUBLE_BOOKED`. -/
def invariantBorrowerDoubleBooked : String := "borrower_in_two_active_calls"

/-- `INVARIANT_CALLS_EXCEED_AGENTS`. -/
def invariantCallsExceedAgents : String := "agent_bound_calls_exceed_usable_agents"

/-- `INVARIANT_STALE_CALL`. -/
def invariantStaleCall : String := "non_terminal_call_older_than_stale_timeout"

/-- `INVARIANT_STUCK_RESERVATION`. -/
def invariantStuckReservation : String := "agent_left_reserved"

/-- `InvariantViolation`. -/
structure InvariantViolation where
  name : String
  detail : String
  offendingIds : List String := []
  deriving DecidableEq, Repr

/-! ## Operations -/

/-- What a check awaits. -/
inductive CheckerOp where
  | findActive (campaignId : String) (limit : Int)
  | countByState (campaignId : String)
  | utcNow
  | findStaleCalls (olderThan : Time) (limit : Int)

/-- What each operation answers. -/
@[reducible] def CheckerAns : CheckerOp → Type
  | .findActive .. | .findStaleCalls .. => List Call
  | .countByState _ => AgentState → Nat
  | .utcNow => Time

/-- The operations, their answers, and the exceptions. -/
@[reducible] def checkerSig : Sig := ⟨CheckerOp, CheckerAns, Exn⟩

/-- A coroutine of the checker. -/
abbrev CheckerAsync (α : Type) : Type := Prog checkerSig α

/-- `await` one operation. -/
abbrev awaitChecker (o : CheckerOp) : CheckerAsync (CheckerAns o) :=
  Prog.perform (S := checkerSig) o

namespace InvariantChecker

/-! ## The checks -/

/-- What `_check_duplicate_bindings` looks for, and by which field. -/
def bindings : List (String × (Call → String)) :=
  [(invariantAgentDoubleBooked, Call.agentId), (invariantBorrowerDoubleBooked, Call.borrowerId)]

/-- An offender: who is in two calls, and in which. -/
def offender (key : Call → String) (call : Call) (earlier : String) : String :=
  key call ++ " in " ++ earlier ++ " and " ++ call.id

/-- The offenders `_check_duplicate_bindings` collects; `seen` has the id of the last call. -/
def offendersOf (key : Call → String) (activeCalls : List Call) : List String :=
  (LastSeen.pass key Call.id (offender key) activeCalls).reported

/-- One iteration of `_check_duplicate_bindings`. -/
def checkBinding (activeCalls : List Call) (binding : String × (Call → String)) :
    List InvariantViolation :=
  let offenders := offendersOf binding.2 activeCalls
  if offenders.isEmpty then []
  else
    [{ name := binding.1
       detail := offenders.length.repr ++ " duplicate bindings detected"
       offendingIds := offenders }]

/-- `_check_duplicate_bindings`. -/
def checkDuplicateBindings (activeCalls : List Call) : List InvariantViolation :=
  bindings.flatMap (checkBinding activeCalls)

/-- `usable_agents` of `_check_capacity`. -/
def usableAgents (agentCounts : AgentState → Nat) : Nat :=
  ((AgentState.all.filter fun state => state != .offline && state != .paused).map agentCounts).sum

/-- `_check_capacity`. -/
def checkCapacity (activeCalls : List Call) (agentCounts : AgentState → Nat) :
    List InvariantViolation :=
  if activeCalls.length ≤ usableAgents agentCounts then []
  else
    [{ name := invariantCallsExceedAgents
       detail := activeCalls.length.repr ++ " agent-bound calls for "
         ++ (usableAgents agentCounts).repr ++ " usable agents"
       offendingIds := activeCalls.map Call.id }]

/-- What `_check_final_state` makes of its readings. -/
def finalViolations (campaignId : String) (agentCounts : AgentState → Nat) (found : List Call) :
    List InvariantViolation :=
  let stale := found.filter fun call => call.campaignId == campaignId
  (if stale.isEmpty then []
    else
      [{ name := invariantStaleCall
         detail := stale.length.repr ++ " calls stayed non-terminal past the stale timeout"
         offendingIds := stale.map Call.id }])
  ++ if agentCounts .reserved = 0 then []
    else
      [{ name := invariantStuckReservation
         detail := (agentCounts .reserved).repr ++ " agents left RESERVED" }]

/-- `_check_final_state`. -/
def checkFinalState (cfg : Settings) (campaignId : String) (agentCounts : AgentState → Nat) :
    CheckerAsync (List InvariantViolation) := do
  let now ← awaitChecker .utcNow
  let found ← awaitChecker (.findStaleCalls (now - seconds cfg.callStaleTimeoutSeconds) 50)
  pure (finalViolations campaignId agentCounts found)

/-- `check`. -/
def check (cfg : Settings) (campaignId : String) (final : Bool) :
    CheckerAsync (List InvariantViolation) := do
  let activeCalls ← awaitChecker (.findActive campaignId 5000)
  let agentCounts ← awaitChecker (.countByState campaignId)
  let violations := checkDuplicateBindings activeCalls ++ checkCapacity activeCalls agentCounts
  if final then do
    let last ← checkFinalState cfg campaignId agentCounts
    pure (violations ++ last)
  else pure violations

/-! ## What a list of calls shows -/

/-- The check for this binding is exact: what it reports, and how many offenders it lists. -/
def DuplicatesExact (name : String) (key : Call → String) (activeCalls : List Call) : Prop :=
  ((∃ v ∈ checkDuplicateBindings activeCalls, v.name = name)
      ↔ ∃ i j : Fin activeCalls.length, i ≠ j ∧ key activeCalls[i] = key activeCalls[j])
    ∧ ∀ v ∈ checkDuplicateBindings activeCalls, v.name = name →
        v.offendingIds.length = activeCalls.length - (activeCalls.map key).toFinset.card

section

variable {activeCalls : List Call} {agentCounts : AgentState → Nat} {v : InvariantViolation}

theorem mem_checkBinding {binding : String × (Call → String)}
    (h : v ∈ checkBinding activeCalls binding) :
    v.name = binding.1 ∧ v.offendingIds = offendersOf binding.2 activeCalls := by
  rw [checkBinding] at h
  split at h
  · cases h
  · obtain rfl := List.mem_singleton.mp h
    exact ⟨rfl, rfl⟩

theorem checkBinding_eq_nil_iff {binding : String × (Call → String)} :
    checkBinding activeCalls binding = [] ↔ offendersOf binding.2 activeCalls = [] := by
  rw [checkBinding]
  split
  · rename_i h
    exact iff_of_true rfl (List.isEmpty_iff.mp h)
  · rename_i h
    exact iff_of_false (List.cons_ne_nil _ _) fun hnil => h (List.isEmpty_iff.mpr hnil)

/-- A violation has the name of the binding that it is about. -/
theorem mem_checkDuplicateBindings {binding : String × (Call → String)} (hb : binding ∈ bindings) :
    v ∈ checkDuplicateBindings activeCalls ∧ v.name = binding.1
      ↔ v ∈ checkBinding activeCalls binding := by
  have hne : invariantAgentDoubleBooked ≠ invariantBorrowerDoubleBooked := by decide
  simp only [bindings, List.mem_cons, List.not_mem_nil, or_false] at hb
  simp only [checkDuplicateBindings, bindings, List.flatMap_cons, List.flatMap_nil,
    List.append_nil, List.mem_append]
  constructor
  · rintro ⟨hv | hv, hname⟩
    · rcases hb with rfl | rfl
      · exact hv
      · exact absurd ((mem_checkBinding hv).1.symm.trans hname) hne
    · rcases hb with rfl | rfl
      · exact absurd ((mem_checkBinding hv).1.symm.trans hname) hne.symm
      · exact hv
  · intro hv
    refine ⟨?_, (mem_checkBinding hv).1⟩
    rcases hb with rfl | rfl
    · exact .inl hv
    · exact .inr hv

theorem reported_iff {binding : String × (Call → String)} (hb : binding ∈ bindings) :
    (∃ v ∈ checkDuplicateBindings activeCalls, v.name = binding.1)
      ↔ offendersOf binding.2 activeCalls ≠ [] := by
  rw [Ne, ← checkBinding_eq_nil_iff]
  constructor
  · rintro ⟨v, hv, hname⟩
    exact List.ne_nil_of_mem ((mem_checkDuplicateBindings hb).mp ⟨hv, hname⟩)
  · intro h
    obtain ⟨v, hv⟩ := List.exists_mem_of_ne_nil _ h
    exact ⟨v, (mem_checkDuplicateBindings hb).mpr hv⟩

theorem duplicates_exact {binding : String × (Call → String)} (hb : binding ∈ bindings) :
    DuplicatesExact binding.1 binding.2 activeCalls := by
  refine ⟨(reported_iff hb).trans (LastSeen.reported_ne_nil_iff ..), fun v hv hname => ?_⟩
  rw [(mem_checkBinding ((mem_checkDuplicateBindings hb).mp ⟨hv, hname⟩)).2]
  exact Nat.eq_sub_of_add_eq (LastSeen.length_reported ..)

/-- The offenders are those who are in a call, and were in another one before it. -/
theorem mem_offendersOf {key : Call → String} {text : String} :
    text ∈ offendersOf key activeCalls ↔ ∃ before call after earlier,
      activeCalls = before ++ call :: after
        ∧ LastSeen.lastWith key (key call) before = some earlier
        ∧ text = key call ++ " in " ++ earlier.id ++ " and " ++ call.id :=
  LastSeen.mem_reported_iff ..

/-- Of three calls of one agent, each names the one right before it. -/
example : offendersOf Call.agentId (["first", "second", "third"].map fun id =>
    CallRepository.newCall id 0 "campaign" "agent" id "mock_a" "worker" 1)
    = ["agent in first and second", "agent in second and third"] := by decide

theorem usableAgents_eq : usableAgents agentCounts = agentCounts .available
    + agentCounts .reserved + agentCounts .dialing + agentCounts .connected
    + agentCounts .wrapUp := by
  simp only [usableAgents, AgentState.all]
  change (agentCounts .available + (agentCounts .reserved + (agentCounts .dialing
    + (agentCounts .connected + (agentCounts .wrapUp + 0))))) = _
  omega

theorem capacity_exact : (∃ v ∈ checkCapacity activeCalls agentCounts,
      v.name = invariantCallsExceedAgents) ↔ usableAgents agentCounts < activeCalls.length := by
  rw [checkCapacity]
  split
  · rename_i hle
    exact iff_of_false (fun ⟨_, hv, _⟩ => List.not_mem_nil hv) (Nat.not_lt.mpr hle)
  · rename_i hlt
    exact iff_of_true ⟨_, List.mem_singleton_self _, rfl⟩ (Nat.not_le.mp hlt)

end

/--
**The oracle is exact.** For every list of active calls: an agent is reported if and only if two
positions of the list carry the agent's id, and there are as many offenders as calls beyond one
for each id; the same of borrowers; and, whatever the counts, too many calls are reported if and
only if there are more of them than agents who are not OFFLINE or PAUSED.
-/
theorem oracle_exact (activeCalls : List Call) (agentCounts : AgentState → Nat) :
    DuplicatesExact invariantAgentDoubleBooked Call.agentId activeCalls
      ∧ DuplicatesExact invariantBorrowerDoubleBooked Call.borrowerId activeCalls
      ∧ ((∃ v ∈ checkCapacity activeCalls agentCounts, v.name = invariantCallsExceedAgents)
        ↔ agentCounts .available + agentCounts .reserved + agentCounts .dialing
          + agentCounts .connected + agentCounts .wrapUp < activeCalls.length) := by
  refine ⟨?_, ?_, ?_⟩
  · have hagent : (invariantAgentDoubleBooked, Call.agentId) ∈ bindings := List.mem_cons_self
    exact duplicates_exact hagent
  · have hborrower : (invariantBorrowerDoubleBooked, Call.borrowerId) ∈ bindings :=
      List.mem_cons_of_mem _ List.mem_cons_self
    exact duplicates_exact hborrower
  · rw [capacity_exact, usableAgents_eq]

/-! ## What a database shows -/

/-- What an operation answers, with the database and the clock as they are. -/
def answer (s : State) (now : Time) : (o : CheckerOp) → CheckerAns o
  | .findActive campaignId limit => CallRepository.findActive campaignId limit s.calls
  | .countByState campaignId => AgentRepository.countByState campaignId s.agents
  | .utcNow => now
  | .findStaleCalls olderThan limit => CallRepository.findStaleCalls olderThan limit s.calls

/-- The `n`-th reading is of the `n`-th state: in between, the dialer does what it does. -/
def watching (states : Nat → State) (clock : Nat → Time) (o : CheckerOp) (n : Nat) :
    Except Exn (CheckerAns o) × Nat :=
  (.ok (answer (states n) (clock n) o), n + 1)

/-- What is found by a check, reading by reading. -/
theorem eval_check (cfg : Settings) (campaignId : String) (final : Bool) (states : Nat → State)
    (clock : Nat → Time) :
    ((check cfg campaignId final).eval (watching states clock) 0).1
      = .ok (checkDuplicateBindings (CallRepository.findActive campaignId 5000 (states 0).calls)
        ++ checkCapacity (CallRepository.findActive campaignId 5000 (states 0).calls)
          (AgentRepository.countByState campaignId (states 1).agents)
        ++ if final then finalViolations campaignId
            (AgentRepository.countByState campaignId (states 1).agents)
            (CallRepository.findStaleCalls (clock 2 - seconds cfg.callStaleTimeoutSeconds) 50
              (states 3).calls)
          else []) := by
  cases final with
  | true => rfl
  | false => exact congrArg Except.ok (List.append_nil _).symm

section

variable {s : State} {campaignId : String} {limit : Int} {named : Call → String} {d : Call}

theorem mem_findActive (hwf : CallsWellFormed s)
    (hd : d ∈ CallRepository.findActive campaignId limit s.calls) :
    s.calls.get d.id = some d ∧ d.campaignId = campaignId ∧ d.Active := by
  obtain ⟨hget, hp⟩ := Collection.mem_find.mp (Collection.mem_of_mem_limit hd)
  simp only [CallRepository.activeIn, Bool.and_eq_true, beq_iff_eq, Bool.not_eq_true',
    bne_iff_ne] at hp
  obtain ⟨⟨hcampaign, hterminal⟩, hstate⟩ := hp
  exact ⟨hget, hcampaign, (hwf _ _ hget).terminal_eq.symm.trans hterminal, hstate⟩

theorem nodup_findActive (calls : Collection Call) :
    (CallRepository.findActive campaignId limit calls).Nodup := by
  have hdocs : calls.docs.Nodup := List.Nodup.of_map _ calls.nodup
  exact (hdocs.sublist List.filter_sublist).sublist (Collection.limit_sublist ..)

/-- Where no two calls under way name one party, none is reported. -/
theorem not_reported_of_exclusive {name : String} (hb : (name, named) ∈ bindings)
    (hwf : CallsWellFormed s) (hex : Exclusive named s) :
    ¬∃ v ∈ checkDuplicateBindings (CallRepository.findActive campaignId limit s.calls),
      v.name = name := by
  rw [reported_iff hb, not_not]
  refine (LastSeen.reported_eq_nil_iff ..).mpr
    ((List.nodup_map_iff_inj_on (nodup_findActive s.calls)).mpr fun d hd d' hd' heq => ?_)
  obtain ⟨hget, -, hactive⟩ := mem_findActive hwf hd
  obtain ⟨hget', -, hactive'⟩ := mem_findActive hwf hd'
  have hid : d.id = d'.id := hex _ _ d d' hget hget' hactive hactive' heq
  exact Option.some.inj (hget.symm.trans (hid ▸ hget'))

/-- Of a campaign with few calls enough, every pair of calls that share a party is seen. -/
theorem reported_of_shared {name : String} (hb : (name, named) ∈ bindings)
    (hwf : CallsWellFormed s)
    (hfew : ((s.calls.find (CallRepository.activeIn campaignId)).length : Int) ≤ limit)
    {d d' : Call} (hd : s.calls.get d.id = some d) (hd' : s.calls.get d'.id = some d')
    (hcampaign : d.campaignId = campaignId) (hcampaign' : d'.campaignId = campaignId)
    (hactive : d.Active) (hactive' : d'.Active) (hne : d ≠ d') (heq : named d = named d') :
    ∃ v ∈ checkDuplicateBindings (CallRepository.findActive campaignId limit s.calls),
      v.name = name := by
  have hfound : ∀ {x : Call}, s.calls.get x.id = some x → x.campaignId = campaignId → x.Active →
      x ∈ CallRepository.findActive campaignId limit s.calls := by
    intro x hx hcampaign hactive
    rw [CallRepository.findActive, Collection.limit_of_length_le hfew]
    refine Collection.mem_find.mpr ⟨hx, ?_⟩
    simp only [CallRepository.activeIn, Bool.and_eq_true, beq_iff_eq, Bool.not_eq_true',
      bne_iff_ne]
    exact ⟨⟨hcampaign, (hwf _ _ hx).terminal_eq.trans hactive.1⟩, hactive.2⟩
  refine (reported_iff hb).mpr fun hnil => hne ?_
  exact (List.nodup_map_iff_inj_on (nodup_findActive s.calls)).mp
    ((LastSeen.reported_eq_nil_iff ..).mp hnil) d (hfound hd hcampaign hactive) d'
    (hfound hd' hcampaign' hactive') heq

/-- Two calls of the campaign are under way, and name one party. -/
def SharedIn (campaignId : String) (named : Call → String) (s : State) : Prop :=
  ∃ d d', s.calls.get d.id = some d ∧ s.calls.get d'.id = some d' ∧ d ≠ d'
    ∧ d.campaignId = campaignId ∧ d'.campaignId = campaignId ∧ d.Active ∧ d'.Active
    ∧ named d = named d'

theorem reported_iff_shared {name : String} (hb : (name, named) ∈ bindings)
    (hwf : CallsWellFormed s)
    (hfew : ((s.calls.find (CallRepository.activeIn campaignId)).length : Int) ≤ limit) :
    (∃ v ∈ checkDuplicateBindings (CallRepository.findActive campaignId limit s.calls),
      v.name = name) ↔ SharedIn campaignId named s := by
  constructor
  · intro hreported
    have hoffenders := (reported_iff hb).mp hreported
    obtain ⟨i, j, hne, heq⟩ := (LastSeen.reported_ne_nil_iff ..).mp hoffenders
    obtain ⟨hi, hcampaign, hactive⟩ := mem_findActive hwf (List.getElem_mem i.2)
    obtain ⟨hj, hcampaign', hactive'⟩ := mem_findActive hwf (List.getElem_mem j.2)
    refine ⟨_, _, hi, hj, fun hsame => hne ?_, hcampaign, hcampaign', hactive, hactive', heq⟩
    exact Fin.ext ((nodup_findActive s.calls).getElem_inj_iff.mp hsame)
  · rintro ⟨d, d', hd, hd', hne, hcampaign, hcampaign', hactive, hactive', heq⟩
    exact reported_of_shared hb hwf hfew hd hd' hcampaign hcampaign' hactive hactive' hne heq

/-- The agents of the campaign who are not OFFLINE or PAUSED. -/
def usableIn (campaignId : String) (s : State) : List Agent :=
  s.agents.find fun a => a.campaignId == campaignId && a.state != .offline && a.state != .paused

theorem usableAgents_countByState :
    usableAgents (AgentRepository.countByState campaignId s.agents)
      = (usableIn campaignId s).length := by
  rw [usableAgents_eq]
  simp only [AgentRepository.countByState, usableIn, Collection.find]
  induction s.agents.docs with
  | nil => rfl
  | cons a agents ih =>
      by_cases hcampaign : a.campaignId = campaignId
      · cases hstate : a.state <;> simp [hcampaign, hstate] at ih ⊢ <;> omega
      · simp [hcampaign] at ih ⊢
        exact ih

/-! ## Every check -/

theorem name_of_mem_checkCapacity {activeCalls : List Call} {agentCounts : AgentState → Nat}
    {v : InvariantViolation} (h : v ∈ checkCapacity activeCalls agentCounts) :
    v.name = invariantCallsExceedAgents := by
  rw [checkCapacity] at h
  split at h
  · cases h
  · obtain rfl := List.mem_singleton.mp h
    rfl

theorem name_of_mem_finalViolations {agentCounts : AgentState → Nat} {found : List Call}
    {v : InvariantViolation} (h : v ∈ finalViolations campaignId agentCounts found) :
    v.name = invariantStaleCall ∨ v.name = invariantStuckReservation := by
  rcases List.mem_append.mp h with h | h
  · split at h
    · cases h
    · obtain rfl := List.mem_singleton.mp h
      exact .inl rfl
  · split at h
    · cases h
    · obtain rfl := List.mem_singleton.mp h
      exact .inr rfl

theorem name_of_mem_checkDuplicateBindings {activeCalls : List Call} {v : InvariantViolation}
    (h : v ∈ checkDuplicateBindings activeCalls) :
    v.name = invariantAgentDoubleBooked ∨ v.name = invariantBorrowerDoubleBooked := by
  obtain ⟨binding, hb, hv⟩ := List.mem_flatMap.mp h
  rw [(mem_checkBinding hv).1]
  simp only [bindings, List.mem_cons, List.not_mem_nil, or_false] at hb
  rcases hb with rfl | rfl
  · exact .inl rfl
  · exact .inr rfl

/-- Of all a check finds, only the search for duplicates says who is booked twice. -/
theorem doubly_booked_iff {name : String} (hb : (name, named) ∈ bindings)
    {activeCalls : List Call} {agentCounts : AgentState → Nat} {last : List InvariantViolation}
    (hlast : ∀ v ∈ last, v.name = invariantStaleCall ∨ v.name = invariantStuckReservation) :
    (∃ v ∈ checkDuplicateBindings activeCalls ++ checkCapacity activeCalls agentCounts ++ last,
        v.name = name)
      ↔ ∃ v ∈ checkDuplicateBindings activeCalls, v.name = name := by
  have hname : name ≠ invariantCallsExceedAgents ∧ name ≠ invariantStaleCall
      ∧ name ≠ invariantStuckReservation := by
    simp only [bindings, List.mem_cons, Prod.mk.injEq, List.not_mem_nil, or_false] at hb
    rcases hb with ⟨rfl, -⟩ | ⟨rfl, -⟩ <;> decide
  constructor
  · rintro ⟨v, hv, rfl⟩
    rcases List.mem_append.mp hv with hv | hv
    · rcases List.mem_append.mp hv with hv | hv
      · exact ⟨v, hv, rfl⟩
      · exact absurd (name_of_mem_checkCapacity hv) hname.1
    · rcases hlast v hv with h | h
      · exact absurd h hname.2.1
      · exact absurd h hname.2.2
  · rintro ⟨v, hv, heq⟩
    exact ⟨v, List.mem_append_left _ (List.mem_append_left _ hv), heq⟩

/-- And only the comparison with the agents, that there are too many calls. -/
theorem too_many_iff {activeCalls : List Call} {agentCounts : AgentState → Nat}
    {last : List InvariantViolation}
    (hlast : ∀ v ∈ last, v.name = invariantStaleCall ∨ v.name = invariantStuckReservation) :
    (∃ v ∈ checkDuplicateBindings activeCalls ++ checkCapacity activeCalls agentCounts ++ last,
        v.name = invariantCallsExceedAgents)
      ↔ ∃ v ∈ checkCapacity activeCalls agentCounts, v.name = invariantCallsExceedAgents := by
  have hname : invariantCallsExceedAgents ≠ invariantAgentDoubleBooked
      ∧ invariantCallsExceedAgents ≠ invariantBorrowerDoubleBooked
      ∧ invariantCallsExceedAgents ≠ invariantStaleCall
      ∧ invariantCallsExceedAgents ≠ invariantStuckReservation := by decide
  constructor
  · rintro ⟨v, hv, heq⟩
    rcases List.mem_append.mp hv with hv | hv
    · rcases List.mem_append.mp hv with hv | hv
      · rcases name_of_mem_checkDuplicateBindings hv with h | h
        · exact absurd (heq.symm.trans h) hname.1
        · exact absurd (heq.symm.trans h) hname.2.1
      · exact ⟨v, hv, heq⟩
    · rcases hlast v hv with h | h
      · exact absurd (heq.symm.trans h) hname.2.2.1
      · exact absurd (heq.symm.trans h) hname.2.2.2
  · rintro ⟨v, hv, heq⟩
    exact ⟨v, List.mem_append_left _ (List.mem_append_right _ hv), heq⟩

/--
**What a check says of the database it has watched**, while the dialer went on: an agent, or a
borrower, is reported if and only if two calls of the campaign that were under way at the first
reading name it; and too many calls, if and only if there were more of them then than there were
usable agents at the second one. The first reading is cut off at 5000 calls.
-/
theorem check_verdict (cfg : Settings) (final : Bool) {states : Nat → State} {clock : Nat → Time}
    (hwf : CallsWellFormed (states 0))
    (hfew : (((states 0).calls.find (CallRepository.activeIn campaignId)).length : Int) ≤ 5000) :
    ∃ violations, ((check cfg campaignId final).eval (watching states clock) 0).1 = .ok violations
      ∧ ((∃ v ∈ violations, v.name = invariantAgentDoubleBooked)
        ↔ SharedIn campaignId Call.agentId (states 0))
      ∧ ((∃ v ∈ violations, v.name = invariantBorrowerDoubleBooked)
        ↔ SharedIn campaignId Call.borrowerId (states 0))
      ∧ ((∃ v ∈ violations, v.name = invariantCallsExceedAgents)
        ↔ (usableIn campaignId (states 1)).length
          < ((states 0).calls.find (CallRepository.activeIn campaignId)).length) := by
  have hagent : (invariantAgentDoubleBooked, Call.agentId) ∈ bindings := List.mem_cons_self
  have hborrower : (invariantBorrowerDoubleBooked, Call.borrowerId) ∈ bindings :=
    List.mem_cons_of_mem _ List.mem_cons_self
  refine ⟨_, eval_check cfg campaignId final states clock, ?_⟩
  generalize hlast : (if final then _ else []) = last
  have hnames : ∀ v ∈ last, v.name = invariantStaleCall ∨ v.name = invariantStuckReservation := by
    intro v hv
    subst hlast
    cases final with
    | true => exact name_of_mem_finalViolations hv
    | false => cases hv
  refine ⟨?_, ?_, ?_⟩
  · rw [doubly_booked_iff hagent hnames, reported_iff_shared hagent hwf hfew]
  · rw [doubly_booked_iff hborrower hnames, reported_iff_shared hborrower hwf hfew]
  · rw [too_many_iff hnames, capacity_exact, usableAgents_countByState,
      CallRepository.findActive, Collection.limit_of_length_le hfew]

end

/-- In a run in which parties are exclusive, nobody is reported, however many calls there are. -/
theorem no_false_alarm {cfg : Settings} {V : Party} {name campaignId : String} {limit : Int}
    (hb : (name, V.named) ∈ bindings) (hv : (exclusion V cfg).Verified NoCalls)
    {w : World (dialer cfg)} (h : Reachable (V.undisturbed cfg) NoCalls w) :
    ¬∃ v ∈ checkDuplicateBindings (CallRepository.findActive campaignId limit w.st.calls),
      v.name = name :=
  not_reported_of_exclusive hb
    (lifecycle_reachable (h.unrestricted fun _ => NoCalls.wellFormed)).1
    fun _ _ _ _ hd hd' hactive hactive' heq =>
      exclusive_of_verified hv h hd hd' hactive hactive' heq

end InvariantChecker

end SmartDialer
