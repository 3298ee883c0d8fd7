import SmartDialer.Conc.Mover
import SmartDialer.Protocol.Lifecycle

/-!
# Events that overtake the attach

A provider may emit events for a call before the dialer has written the provider's id for it
into the call. An event processor that looks the call up in the meantime finds nothing and
calls the event invalid; and since its id is recorded by then, no redelivery will do better.
So an event is safe from the race if its processor has got no further than the duplicate gate
when the id is attached.

That this is all there is to it is shown by moving the attach: it commutes with everything
that neither looks the provider's id up nor works on the call, so that the run might as well
have started with the originate and the attach, and ends in the same documents with every
process at the same place.
-/

namespace SmartDialer

open Store Conc

/-! ## Statement -/

/-- The operation does not look up the provider call id, and does not work on the call. -/
def Op.apart (call : Call) (providerCallId : String) (now : Time) : Op → Bool
  | .findByProviderCallId providerName pid =>
      !(providerName == call.providerName && pid == providerCallId)
  | .findByIdempotencyKey key => key != call.idempotencyKey
  | .findCallById callId | .transitionCall callId _ _ => callId != call.id
  | .attachProviderCallId callId pid => callId != call.id && pid != some providerCallId
  -- the attach at `now` is also an update of the call
  | .findStaleCalls olderThan _ => !CallRepository.stale olderThan call && decide (olderThan ≤ now)
  | _ => true

/-- The steps of the others while the id of the call, attached at `now`, is not looked up. -/
def unseen (cfg : Settings) (i : Nat) (callId providerCallId : String) (now : Time) :
    Policy (dialer cfg) where
  task _ := True
  run j o _ s := j ≠ i ∧ (s.calls.get callId).any (fun d => o.apart d providerCallId now) = true

instance (cfg : Settings) (i : Nat) (callId providerCallId : String) (now : Time) :
    (unseen cfg i callId providerCallId now).Checkable where
  task _ := .isTrue trivial
  run _ _ _ _ := inferInstanceAs (Decidable (_ ∧ _))

/-! ## The log is not looked at -/

theorem sameDocuments_indistinct (cfg : Settings) :
    Indistinct (dialer cfg) SameDocuments where
  refl := .refl
  trans := .trans
  exec _ o c h := ⟨(h.attempt o c).1, (h.attempt o c).2.congr (.record _ _) (.record _ _)⟩
  crash _ h := h.congr (.record _ _) (.record _ _)

theorem unseen_blind (cfg : Settings) (i : Nat) (callId providerCallId : String) (now : Time) :
    (unseen cfg i callId providerCallId now).Blind SameDocuments := by
  intro s s' j o c h hrun
  obtain ⟨hj, hapart⟩ := hrun
  refine ⟨hj, ?_⟩
  rw [← h.calls]
  exact hapart

/-! ## What commutes with the attach -/

section

variable {callId providerCallId : String} {now : Time} {s : State} {d : Call}

/-- The calls with the id attached. -/
def attached (callId providerCallId : String) (now : Time) (calls : Collection Call) :
    Collection Call :=
  calls.update callId CallRepository.attachable (CallRepository.attach now (some providerCallId))

/-- The state with the id attached. -/
def State.attach (callId providerCallId : String) (now : Time) (s : State) : State :=
  { s with calls := attached callId providerCallId now s.calls }

theorem insertCall_attached {calls : Collection Call} (hd : calls.get callId = some d)
    (call : Call) :
    CallRepository.insertCall call (attached callId providerCallId now calls)
      = (CallRepository.insertCall call calls).map (attached callId providerCallId now) := by
  have hkey : ((attached callId providerCallId now calls).findOne
        (fun x => x.idempotencyKey == call.idempotencyKey)).isSome
      = (calls.findOne (fun x => x.idempotencyKey == call.idempotencyKey)).isSome := by
    rw [attached, Collection.findOne_update (fun _ => rfl), Option.isSome_map]
  rw [CallRepository.insertCall, CallRepository.insertCall, hkey]
  split
  · rfl
  · by_cases hid : call.id = callId
    · -- the id of the call itself is refused before and after
      have hmem : ∀ calls' : Collection Call, (calls'.get callId).isSome = true →
          calls'.insert call = none := by
        intro calls' hsome
        refine Collection.insert_of_mem (Collection.get_isSome_iff.mp ?_)
        rwa [call_key, hid]
      have hget : ((attached callId providerCallId now calls).get callId).isSome = true := by
        rw [attached, Collection.get_update, Option.isSome_map, hd]
        rfl
      rw [hmem calls (by rw [hd]; rfl), hmem _ hget]
      rfl
    · exact Collection.insert_update calls hid _ _

theorem attachProviderCallId_attached {calls : Collection Call} (hd : calls.get callId = some d)
    (hnone : d.providerCallId = none) {id : String} (hid : id ≠ callId) {pid : Option String}
    (hpid : pid ≠ some providerCallId) (now' : Time) :
    CallRepository.attachProviderCallId now' id pid (attached callId providerCallId now calls)
      = ((CallRepository.attachProviderCallId now' id pid calls).1,
        attached callId providerCallId now
          (CallRepository.attachProviderCallId now' id pid calls).2) := by
  have hget : (attached callId providerCallId now calls).get id = calls.get id :=
    Collection.get_update_ne hid _ _
  -- neither `none` nor the new id is the one that is looked for among the other calls
  have htaken : CallRepository.providerCallIdTaken id pid
      (attached callId providerCallId now calls)
        = CallRepository.providerCallIdTaken id pid calls := by
    rw [CallRepository.providerCallIdTaken, CallRepository.providerCallIdTaken, hget]
    cases pid with
    | none => rfl
    | some pid =>
        refine congrArg (calls.get id).any (funext fun x => ?_)
        have hbefore : (d.id != id && d.providerName == x.providerName
            && d.providerCallId == some pid) = false := by
          rw [hnone]
          exact Bool.and_false _
        have hafter : (d.id != id && d.providerName == x.providerName
            && some providerCallId == some pid) = false := by
          rw [beq_false_of_ne (Ne.symm hpid), Bool.and_false]
        rw [attached, Collection.findOne_update_of_not hd hbefore hafter]
  rw [CallRepository.attachProviderCallId, CallRepository.attachProviderCallId, hget, htaken]
  split
  · rfl
  · rw [Collection.findOneAndUpdate, Collection.findOneAndUpdate, hget]
    exact Prod.ext rfl (Collection.update_comm calls (Ne.symm hid) _ _ _ _)

theorem outcomeCountsBetween_attached (campaignId : String) (start stop : Time)
    (calls : Collection Call) :
    CallRepository.outcomeCountsBetween campaignId start stop
        (attached callId providerCallId now calls)
      = CallRepository.outcomeCountsBetween campaignId start stop calls := by
  rw [CallRepository.outcomeCountsBetween, CallRepository.outcomeCountsBetween, attached]
  rw [Collection.find_update (fun _ => rfl), List.length_map]
  rw [Collection.length_filter_rewrite (fun _ => rfl),
    Collection.length_filter_rewrite (fun _ => rfl), Collection.length_filter_rewrite fun _ => rfl]

theorem countByState_attached (campaignId : String) (calls : Collection Call) :
    CallRepository.countByState campaignId (attached callId providerCallId now calls)
      = CallRepository.countByState campaignId calls := by
  funext t
  rw [CallRepository.countByState, CallRepository.countByState, attached,
    Collection.find_update (fun _ => rfl), List.length_map]

/-- An operation that keeps apart makes no difference between a call attached and not. -/
theorem effect_attach {o : Op} (c : Choice) (hd : s.calls.get callId = some d)
    (hnone : d.providerCallId = none) (ho : o.apart d providerCallId now = true) :
    effect o c (s.attach callId providerCallId now)
      = ((effect o c s).1, (effect o c s).2.attach callId providerCallId now) := by
  have hid : d.id = callId := Collection.key_of_get hd
  cases o with
  -- the queries that could tell, each by what `apart` says of it
  | findByProviderCallId providerName pid =>
      have hbefore : (d.providerName == providerName && d.providerCallId == some pid) = false := by
        rw [hnone]
        exact Bool.and_false _
      have hafter : (d.providerName == providerName && some providerCallId == some pid)
          = false := by
        simp only [Op.apart, Bool.not_eq_true'] at ho
        rw [Bool.and_eq_false_iff] at ho ⊢
        refine ho.imp (fun h => ?_) fun h => ?_
        · exact beq_false_of_ne (Ne.symm (ne_of_beq_false h))
        · exact beq_false_of_ne fun heq => ne_of_beq_false h (Option.some.inj heq).symm
      refine Prod.ext (congrArg Except.ok ?_) rfl
      exact Collection.findOne_update_of_not hd hbefore hafter
  | findByIdempotencyKey key =>
      have hkey : (d.idempotencyKey == key) = false :=
        beq_false_of_ne (Ne.symm (bne_iff_ne.mp ho))
      refine Prod.ext (congrArg Except.ok ?_) rfl
      exact Collection.findOne_update_of_not hd hkey hkey
  | findCallById id =>
      have hne : id ≠ callId := hid ▸ bne_iff_ne.mp ho
      refine Prod.ext (congrArg Except.ok ?_) rfl
      exact Collection.get_update_ne hne _ _
  | transitionCall id t reason =>
      have hne : id ≠ callId := hid ▸ bne_iff_ne.mp ho
      have hget : (attached callId providerCallId now s.calls).get id = s.calls.get id :=
        Collection.get_update_ne hne _ _
      have hcomm : CallRepository.transitionCall c.now id t reason
            (attached callId providerCallId now s.calls)
          = ((CallRepository.transitionCall c.now id t reason s.calls).1,
            attached callId providerCallId now
              (CallRepository.transitionCall c.now id t reason s.calls).2) := by
        rw [CallRepository.transitionCall, CallRepository.transitionCall,
          Collection.findOneAndUpdate, Collection.findOneAndUpdate, hget]
        exact Prod.ext rfl (Collection.update_comm s.calls (Ne.symm hne) _ _ _ _)
      rw [effect, effect, State.onCalls, State.onCalls, State.attach, hcomm]
      rfl
  | attachProviderCallId id pid =>
      rw [Op.apart, Bool.and_eq_true, bne_iff_ne, bne_iff_ne, hid] at ho
      rw [effect, effect, State.onCalls, State.onCalls, State.attach,
        attachProviderCallId_attached hd hnone ho.1 ho.2]
      rfl
  | findStaleCalls olderThan limit =>
      rw [Op.apart, Bool.and_eq_true, Bool.not_eq_true', decide_eq_true_eq] at ho
      obtain ⟨hbefore, hclock⟩ := ho
      -- attaching counts as an update, so the call is no longer stale by that clock
      have hafter : CallRepository.stale olderThan
          ((CallRepository.attach now (some providerCallId)).apply d) = false := by
        rw [CallRepository.stale, Bool.and_eq_false_iff]
        exact .inr (decide_eq_false (not_lt.mpr hclock))
      refine Prod.ext (congrArg Except.ok ?_) rfl
      change CallRepository.findStaleCalls olderThan limit (attached _ _ _ s.calls) = _
      rw [CallRepository.findStaleCalls, CallRepository.findStaleCalls, attached,
        Collection.find_update_of_not hd hbefore hafter]
  | insertCall campaignId agentId borrowerId providerName workerId attempt =>
      simp only [effect, State.attach, insertCall_attached hd]
      cases CallRepository.insertCall _ s.calls <;> rfl
  | outcomeCountsBetween campaignId start stop =>
      refine Prod.ext (congrArg Except.ok ?_) rfl
      exact outcomeCountsBetween_attached campaignId start stop s.calls
  | countCallsByState campaignId =>
      refine Prod.ext (congrArg Except.ok ?_) rfl
      exact countByState_attached campaignId s.calls
  | originateCall _ _ _ =>
      simp only [effect]
      split <;> rfl
  | hangupCall _ _ =>
      simp only [effect]
      split <;> rfl
  | getCallStatus _ _ =>
      simp only [effect]
      split <;> rfl
  | _ => rfl

/-! ## Where the attach succeeds -/

/-- The call has no id yet, and no other call of its provider has this one. -/
def Attachable (callId providerCallId : String) (s : State) : Prop :=
  ∃ d, s.calls.get callId = some d ∧ d.providerCallId = none
    ∧ CallRepository.providerCallIdTaken callId (some providerCallId) s.calls = false

theorem Attachable.congr {s s' : State} (h : Attachable callId providerCallId s)
    (hs : SameDocuments s s') : Attachable callId providerCallId s' := by
  rw [Attachable, ← hs.calls]
  exact h

theorem providerCallIdTaken_iff {calls : Collection Call} (hd : calls.get callId = some d) :
    CallRepository.providerCallIdTaken callId (some providerCallId) calls = true
      ↔ ∃ k x, k ≠ callId ∧ calls.get k = some x ∧ x.providerName = d.providerName
          ∧ x.providerCallId = some providerCallId := by
  rw [CallRepository.providerCallIdTaken, hd, Option.any_some, Option.isSome_some, Bool.true_and]
  constructor
  · intro h
    obtain ⟨x, hx⟩ := Option.isSome_iff_exists.mp h
    obtain ⟨hget, hq⟩ := Collection.findOne_some hx
    simp only [Bool.and_eq_true, bne_iff_ne, beq_iff_eq] at hq
    exact ⟨x.id, x, hq.1.1, hget, hq.1.2, hq.2⟩
  · rintro ⟨k, x, hk, hx, hname, hpid⟩
    have hid : x.id = k := Collection.key_of_get hx
    rw [Option.isSome_iff_ne_none]
    intro hnone
    have hnot := Collection.findOne_none hnone hx
    simp [hid, hk, hname, hpid] at hnot

/-- An id once attached stays. -/
theorem attached_exec {i : Nat} {o : Op} {c : Choice} {k : String} {x : Call}
    (hx : s.calls.get k = some x) (hpid : x.providerCallId = some providerCallId) :
    ∃ x', (exec i o c s).2.calls.get k = some x' ∧ x'.providerName = x.providerName
      ∧ x'.providerCallId = some providerCallId := by
  obtain ⟨x', hx', hrew⟩ := call_exec hx
  refine ⟨x', hx', ?_⟩
  cases hrew with
  | same => exact ⟨rfl, hpid⟩
  | written v hv _ hp =>
      cases o, v, hv using Op.callWrite_cases with
      | attachProviderCallId id pid =>
          change x.providerCallId.isNone = true at hp
          rw [hpid] at hp
          cases hp
      | transitionCall id t reason => exact ⟨rfl, hpid⟩

/-- An operation that keeps apart leaves the call as it is. -/
theorem get_exec_of_apart {i : Nat} {o : Op} {c : Choice} (hd : s.calls.get callId = some d)
    (ho : o.apart d providerCallId now = true) :
    (exec i o c s).2.calls.get callId = some d := by
  have hid : d.id = callId := Collection.key_of_get hd
  obtain ⟨d', hd', hrew⟩ := call_exec hd
  cases hrew with
  | same => exact hd'
  | written v hv hk _ =>
      cases o, v, hv using Op.callWrite_cases with
      | attachProviderCallId id pid =>
          rw [Op.apart, Bool.and_eq_true, bne_iff_ne] at ho
          exact absurd hk.symm ho.1
      | transitionCall id t reason =>
          exact absurd hk.symm (bne_iff_ne.mp ho)

/-- If the id can be attached after such an operation, it could be before. -/
theorem attachable_of_apart {i : Nat} {o : Op} {c : Choice} (hd : s.calls.get callId = some d)
    (ho : o.apart d providerCallId now = true)
    (h : Attachable callId providerCallId (exec i o c s).2) :
    d.providerCallId = none ∧ Attachable callId providerCallId s := by
  obtain ⟨d', hd', hnone, hfree⟩ := h
  have hsame := get_exec_of_apart (i := i) (c := c) hd ho
  obtain rfl : d = d' := Option.some.inj (hsame.symm.trans hd')
  refine ⟨hnone, d, hd, hnone, Bool.eq_false_iff.mpr fun htaken => ?_⟩
  obtain ⟨k, x, hk, hx, hname, hpid⟩ := (providerCallIdTaken_iff hd).mp htaken
  obtain ⟨x', hx', hname', hpid'⟩ := attached_exec (i := i) (o := o) (c := c) hx hpid
  have htaken' := (providerCallIdTaken_iff hsame).mpr
    ⟨k, x', hk, hx', hname'.trans hname, hpid'⟩
  cases htaken'.symm.trans hfree

/-- The answer of an attach that succeeds tells that it could, and that nothing went wrong. -/
theorem attachable_of_ok {i : Nat} {c : Choice} {answer : Call}
    (h : (exec i (.attachProviderCallId callId (some providerCallId)) c s).1
      = .ok (some answer)) :
    Attachable callId providerCallId s ∧ c.fault = .none := by
  refine ⟨?_, ?_⟩
  · obtain ⟨heff, -⟩ := exec_ok h
    simp only [effect, State.onCalls, CallRepository.attachProviderCallId] at heff
    split at heff
    · cases Except.ok.inj heff
    · rename_i hfree
      obtain ⟨d, hd, hp, -⟩ := Collection.findOneAndUpdate_some.mp (Except.ok.inj heff)
      rw [hd, Option.any_some, hp, Bool.true_and] at hfree
      exact ⟨d, hd, Option.isNone_iff_eq_none.mp hp, Bool.not_eq_true _ ▸ hfree⟩
  · change (attempt _ c s).1 = _ at h
    rw [attempt] at h
    cases hf : c.fault with
    | none => rfl
    | dbError name performed =>
        rw [hf] at h
        cases h
    | cancelled performed =>
        rw [hf] at h
        cases h

/-- What the attach does where it succeeds. -/
theorem exec_attach {i : Nat} {c : Choice} (h : Attachable callId providerCallId s)
    (hc : c.fault = .none) :
    ∃ d, s.calls.get callId = some d
      ∧ (exec i (.attachProviderCallId callId (some providerCallId)) c s).1
          = .ok (some ((CallRepository.attach c.now (some providerCallId)).apply d))
      ∧ SameDocuments (exec i (.attachProviderCallId callId (some providerCallId)) c s).2
          (s.attach callId providerCallId c.now) := by
  obtain ⟨d, hd, hnone, hfree⟩ := h
  have heff : effect (.attachProviderCallId callId (some providerCallId)) c s
      = (.ok (some ((CallRepository.attach c.now (some providerCallId)).apply d)),
        s.attach callId providerCallId c.now) := by
    have hp : CallRepository.attachable d = true := by rw [CallRepository.attachable, hnone]; rfl
    have hanswer : (s.calls.get callId).filter CallRepository.attachable = some d := by
      rw [hd, Option.filter_some, if_pos hp]
    rw [effect, State.onCalls, CallRepository.attachProviderCallId, hfree, Bool.and_false,
      if_neg Bool.false_ne_true, Collection.findOneAndUpdate, hanswer]
    rfl
  refine ⟨d, hd, ?_, ?_⟩
  · rw [exec, attempt, hc]
    exact congrArg Prod.fst heff
  · rw [exec, attempt, hc]
    dsimp only
    rw [heff]
    exact .record _ _

end

/-! ## The movers -/

section

variable {cfg : Settings} {i : Nat} {callId providerCallId : String}

/-- **The attach moves to the left** past everything that keeps apart. -/
theorem attach_leftMover {c : Choice} (hc : c.fault = .none) :
    LeftMover (unseen cfg i callId providerCallId c.now) (Policy.any (dialer cfg)) SameDocuments i
      (.attachProviderCallId callId (some providerCallId)) c
      (Attachable callId providerCallId) where
  task _ _ := trivial
  idle := by
    intro o' c' s h
    exact h.1 rfl
  crash := by
    intro j s h
    have hs : Attachable callId providerCallId s := h
    obtain ⟨d, hd, hans, hst⟩ := exec_attach (i := i) hs hc
    obtain ⟨d', hd', hans', hst'⟩ := exec_attach (i := i) h hc
    obtain rfl : d = d' := Option.some.inj (hd.symm.trans hd')
    refine ⟨hs, hans'.trans hans.symm, ?_⟩
    exact hst'.trans ⟨hst.symm.agents, hst.symm.borrowers, hst.symm.calls, hst.symm.events⟩
  run := by
    intro j o' c' s hne hrun h
    obtain ⟨-, hapart⟩ := hrun
    obtain ⟨d, hd, ho⟩ := Option.any_eq_true _ _ |>.mp hapart
    obtain ⟨hnone, hs⟩ := attachable_of_apart hd ho h
    obtain ⟨d₁, hd₁, hans, hst⟩ := exec_attach (i := i) hs hc
    obtain ⟨d₂, hd₂, hans', hst'⟩ := exec_attach (i := i) h hc
    obtain rfl : d = d₁ := Option.some.inj (hd.symm.trans hd₁)
    obtain rfl : d = d₂ := Option.some.inj ((get_exec_of_apart hd ho).symm.trans hd₂)
    have hatt := attempt_of_effect (f := fun t => t.attach callId providerCallId c.now)
      (effect_attach c' hd hnone ho)
    -- the other operation, after the attach
    obtain ⟨hother, hafter⟩ := (sameDocuments_indistinct cfg).exec j o' c' hst
    have hsame : (exec j o' c' (s.attach callId providerCallId c.now)).1
        = (exec j o' c' s).1 := by
      rw [exec, exec, hatt]
    refine ⟨hs, trivial, hother.trans hsame, hans'.trans hans.symm, ?_⟩
    have hmid : SameDocuments ((exec j o' c' s).2.attach callId providerCallId c.now)
        (exec j o' c' (s.attach callId providerCallId c.now)).2 := by
      rw [exec, exec, hatt]
      exact ⟨rfl, rfl, rfl, rfl⟩
    exact (hst'.trans hmid).trans hafter.symm

/-- The provider's answer depends on nothing that is stored, and is not stored. -/
theorem exec_originate (providerName : String) (pair : ReservationPair)
    (request : OriginateRequest) (c : Choice) (s s' : State) :
    (exec i (.originateCall providerName pair request) c s).1
        = (exec i (.originateCall providerName pair request) c s').1
      ∧ SameDocuments (exec i (.originateCall providerName pair request) c s).2 s := by
  have heff : ∀ t : State, (effect (.originateCall providerName pair request) c t).1
        = (effect (.originateCall providerName pair request) c s).1
      ∧ (effect (.originateCall providerName pair request) c t).2 = t := by
    intro t
    rw [effect, effect]
    cases c.originate <;> exact ⟨rfl, rfl⟩
  refine ⟨?_, ?_⟩
  · rw [exec, exec, attempt, attempt]
    cases c.fault with
    | none => exact (heff s').1.symm
    | dbError name performed => exact (heff s').1.symm
    | cancelled performed => rfl
  · rw [exec]
    have hstate : (attempt (.originateCall providerName pair request) c s).2 = s :=
      (attempt_state _ c s).elim id fun h => h.trans (heff s).2
    rw [hstate]
    exact .record s _

/-- **The originate moves to the left** past everything. -/
theorem originate_leftMover (providerName : String) (pair : ReservationPair)
    (request : OriginateRequest) (c : Choice) (now : Time) :
    LeftMover (unseen cfg i callId providerCallId now) (unseen cfg i callId providerCallId now)
      SameDocuments i (.originateCall providerName pair request) c fun _ => True where
  task _ _ := trivial
  idle := by
    intro o' c' s h
    exact h.1 rfl
  crash := by
    intro j s _
    obtain ⟨hans, hst⟩ := exec_originate (i := i) providerName pair request c s (crash j s)
    obtain ⟨-, hst'⟩ := exec_originate (i := i) providerName pair request c (crash j s) s
    refine ⟨trivial, hans.symm, hst'.trans ?_⟩
    exact (sameDocuments_indistinct cfg).crash j hst.symm
  run := by
    intro j o' c' s _ hrun _
    obtain ⟨hans, hst⟩ := exec_originate (i := i) providerName pair request c s
      (exec j o' c' s).2
    obtain ⟨-, hst'⟩ := exec_originate (i := i) providerName pair request c (exec j o' c' s).2 s
    obtain ⟨hother, hafter⟩ := (sameDocuments_indistinct cfg).exec j o' c' hst
    exact ⟨trivial, unseen_blind cfg i callId providerCallId now j o' c' hst.symm hrun, hother,
      hans.symm, hst'.trans hafter.symm⟩

end

/-! ## No event is lost -/

section

variable {cfg : Settings} {i : Nat} {callId providerCallId : String}

/--
**Events that wait for the attach are not lost to it.** Process `i` is about to ask the
provider; until its answer is attached, the others do anything that neither looks the new id
up nor works on the call, and after that anything at all. Then there is the run in which the
originate and the attach come first and everything else happens as it did, and it ends in the
same documents, with every process at the same place.
-/
theorem events_survive_attach {w w₁ w₂ w₃ w₄ w₅ : World (dialer cfg)}
    {before between after : List (Label (dialer cfg))} {c₁ c₂ : Choice} {providerName : String}
    {pair : ReservationPair} {request : OriginateRequest} {call : Call}
    (hlt : i < w.procs.length)
    (hbefore : w.play (unseen cfg i callId providerCallId c₂.now) before = some w₁)
    (horiginate : w₁.Awaits i (.originateCall providerName pair request))
    (hasked : w₁.next (Policy.any (dialer cfg)) (.run i c₁) = some w₂)
    (hbetween : w₂.play (unseen cfg i callId providerCallId c₂.now) between = some w₃)
    (hattach : w₃.Awaits i (.attachProviderCallId callId (some providerCallId)))
    (hok : (exec i (.attachProviderCallId callId (some providerCallId)) c₂ w₃.st).1
      = .ok (some call))
    (hattached : w₃.next (Policy.any (dialer cfg)) (.run i c₂) = some w₄)
    (hafter : w₄.play (Policy.any (dialer cfg)) after = some w₅) :
    ∃ w', w.play (Policy.any (dialer cfg))
        (.run i c₁ :: .run i c₂ :: (before ++ (between ++ after))) = some w'
      ∧ w'.procs = w₅.procs ∧ SameDocuments w'.st w₅.st := by
  have hE := sameDocuments_indistinct cfg
  have hany : (Policy.any (dialer cfg)).Blind SameDocuments := Policy.any_blind
  have hblind : (unseen cfg i callId providerCallId c₂.now).Blind SameDocuments :=
    unseen_blind cfg i callId providerCallId c₂.now
  obtain ⟨hK, hfault⟩ := attachable_of_ok hok
  have hlt₁ : i < w₁.procs.length :=
    Nat.lt_of_lt_of_le hlt (Step.length_le_of_steps (steps_of_play hbefore))
  have hlt₂ : i < w₂.procs.length := Nat.lt_of_lt_of_le hlt₁ (Step.of_next hasked).length_le
  -- the attach passes what came between the answer and it
  obtain ⟨hi₂, hK₂, u₂, v₃, hu₂, hv₃, halike₃⟩ :=
    (attach_leftMover hfault).play hE hany hlt₂ hbetween hattach hK hattached
  -- the originate passes what came before it
  obtain ⟨-, -, u, v₁, hu, hv₁, halike₁⟩ :=
    (originate_leftMover providerName pair request c₁ c₂.now).play hE hblind hlt hbefore
      horiginate trivial hasked
  -- and the attach follows it
  have hlt' : i < u.procs.length := Nat.lt_of_lt_of_le hlt (Step.of_next hu).length_le
  have hi₁ : v₁.Awaits i (.attachProviderCallId callId (some providerCallId)) := by
    rw [World.Awaits, ← halike₁.procs]
    exact hi₂
  have hK₁ : Attachable callId providerCallId v₁.st := hK₂.congr halike₁.st
  obtain ⟨v₂, hv₂, halike₂⟩ := halike₁.next hE hany hu₂
  obtain ⟨-, -, u', v, hu', hv, halike⟩ :=
    (attach_leftMover hfault).play hE hany hlt' hv₁ hi₁ hK₁ hv₂
  -- the rest is played from alike worlds
  obtain ⟨x₃, hx₃, hend₃⟩ := (halike₂.trans hE halike).play hE hany hv₃
  obtain ⟨w', hw', hend⟩ := (halike₃.trans hE hend₃).play hE hany hafter
  refine ⟨w', ?_, hend.procs.symm, hend.st.symm⟩
  rw [World.play, hu, Option.bind_some, World.play, hu', Option.bind_some, play_append, hv,
    Option.bind_some, play_append, hx₃, Option.bind_some]
  exact hw'

end

/-! ## An event that waits, and one that does not -/

/-- A delivery of ANSWERED. -/
def delivery : Label (dialer {}) := .spawn (.processEvent (eventOf "ANSWERED"))

/-- What is left to do once the provider has been asked: the attach. -/
def attachStep : Label (dialer {}) := .run 0 {}

/-- The dial, up to the originate. -/
def upToOriginate : List (Label (dialer {})) :=
  dialOnce :: (dialSchedule 0 0 "call" "provider-call").take 9

/-- Two deliveries, and no processor gets further than the duplicate gate before the attach. -/
def beforeAnswer : List (Label (dialer {})) := [delivery, .run 1 {}]

def beforeAttach : List (Label (dialer {})) := [delivery, .run 2 {}]

def afterAttach : List (Label (dialer {})) := List.replicate 5 (.run 1 {})

/-- Process 0 is about to ask the provider. -/
def asks (w : World (dialer {})) : Bool :=
  match w.awaited 0 with
  | some (.originateCall ..) => true
  | _ => false

theorem awaits_of_asks {w : World (dialer {})} (h : asks w = true) :
    ∃ providerName pair request, w.Awaits 0 (.originateCall providerName pair request) := by
  rw [asks] at h
  split at h
  · rename_i providerName pair request hi
    exact ⟨providerName, pair, request, awaits_of_awaited hi⟩
  · cases h

/-- Process 0 is about to attach the id, and will succeed. -/
def attaches (w : World (dialer {})) : Bool :=
  match w.awaited 0 with
  | some (.attachProviderCallId "call" (some "provider-call")) =>
      match (exec 0 (.attachProviderCallId "call" (some "provider-call")) {} w.st).1 with
      | .ok (some _) => true
      | _ => false
  | _ => false

theorem ok_of_attaches {w : World (dialer {})} (h : attaches w = true) :
    w.Awaits 0 (.attachProviderCallId "call" (some "provider-call"))
      ∧ ∃ call, (exec 0 (.attachProviderCallId "call" (some "provider-call")) {} w.st).1
          = .ok (some call) := by
  rw [attaches] at h
  split at h
  · rename_i hi
    split at h
    · rename_i call hok
      exact ⟨awaits_of_awaited hi, call, hok⟩
    · cases h
  · cases h

/-- The state of the call, and the id it has. -/
def callSeen (w : World (dialer {})) : Option (CallState × Option String) :=
  (w.st.calls.get "call").map fun d => (d.state, d.providerCallId)

/-- How these deliveries go. -/
def deliveredInTime (w : World (dialer {})) : Bool :=
  decide (0 < w.procs.length)
    && (w.play (unseen {} 0 "call" "provider-call" 0) beforeAnswer).any fun w₁ =>
      asks w₁ && (w₁.next (Policy.any (dialer {})) (.run 0 (accepted 0 "provider-call"))).any
        fun w₂ => (w₂.play (unseen {} 0 "call" "provider-call" 0) beforeAttach).any fun w₃ =>
          attaches w₃ && (w₃.next (Policy.any (dialer {})) attachStep).any fun w₄ =>
            (w₄.play (Policy.any (dialer {})) afterAttach).any fun w₅ =>
              decide w₅.Finished && callSeen w₅ == some (.answered, some "provider-call")

/-- Such a run, in which the call ends up ANSWERED. -/
theorem events_survive_attach_answered :
    ∃ w w₅ w' : World (dialer {}),
      (World.mk oneAgent []).play (Policy.any (dialer {})) upToOriginate = some w
      ∧ w₅.Finished ∧ callSeen w₅ = some (.answered, some "provider-call")
      ∧ w.play (Policy.any (dialer {}))
          (.run 0 (accepted 0 "provider-call") :: .run 0 {}
            :: (beforeAnswer ++ (beforeAttach ++ afterAttach))) = some w'
      ∧ w'.procs = w₅.procs ∧ SameDocuments w'.st w₅.st := by
  have hplay : ((World.mk oneAgent []).play (Policy.any (dialer {})) upToOriginate).any
      deliveredInTime = true := by decide +kernel
  obtain ⟨w, hw, htest⟩ := Option.any_eq_true _ _ |>.mp hplay
  rw [deliveredInTime, Bool.and_eq_true, decide_eq_true_eq] at htest
  obtain ⟨hlt, htest⟩ := htest
  obtain ⟨w₁, hbefore, htest⟩ := Option.any_eq_true _ _ |>.mp htest
  obtain ⟨hasks, htest⟩ := Bool.and_eq_true_iff.mp htest
  obtain ⟨w₂, hasked, htest⟩ := Option.any_eq_true _ _ |>.mp htest
  obtain ⟨w₃, hbetween, htest⟩ := Option.any_eq_true _ _ |>.mp htest
  obtain ⟨hattaches, htest⟩ := Bool.and_eq_true_iff.mp htest
  obtain ⟨w₄, hattached, htest⟩ := Option.any_eq_true _ _ |>.mp htest
  obtain ⟨w₅, hafter, htest⟩ := Option.any_eq_true _ _ |>.mp htest
  obtain ⟨hdone, hcall⟩ := Bool.and_eq_true_iff.mp htest
  obtain ⟨_, _, _, horiginate⟩ := awaits_of_asks hasks
  obtain ⟨hattach, _, hok⟩ := ok_of_attaches hattaches
  obtain ⟨w', hw', hprocs, hst⟩ := events_survive_attach hlt hbefore horiginate hasked hbetween
    hattach hok hattached hafter
  exact ⟨w, w₅, w', hw, of_decide_eq_true hdone, beq_iff_eq.mp hcall, hw', hprocs, hst⟩

/-- The first delivery is processed before the attach, the second after it. -/
def overtakenAttach : List (Label (dialer {})) :=
  upToOriginate ++ [.run 0 (accepted 0 "provider-call"), delivery] ++ List.replicate 3 (.run 1 {})
    ++ [attachStep, delivery, .run 2 {}]

/-- Both deliveries are processed after the attach. -/
def promptAttach : List (Label (dialer {})) :=
  upToOriginate ++ [.run 0 (accepted 0 "provider-call"), attachStep, delivery]
    ++ List.replicate 6 (.run 1 {}) ++ [delivery, .run 2 {}]

/--
**An event is lost to the attach.** ANSWERED is delivered twice in both runs, and the call is
attached in both; but the processor that looks for the call too early has used up the event.
-/
theorem event_lost_to_attach :
    ∃ w w' : World (dialer {}),
      (World.mk oneAgent []).play (Policy.any (dialer {})) overtakenAttach = some w
      ∧ (World.mk oneAgent []).play (Policy.any (dialer {})) promptAttach = some w'
      ∧ w.Finished ∧ w'.Finished
      ∧ callSeen w = some (.initiated, some "provider-call")
      ∧ callSeen w' = some (.answered, some "provider-call") := by
  have hlost : ((World.mk oneAgent []).play (Policy.any (dialer {})) overtakenAttach).any
      (fun w => decide w.Finished
        && callSeen w == some (.initiated, some "provider-call")) = true := by decide +kernel
  have hkept : ((World.mk oneAgent []).play (Policy.any (dialer {})) promptAttach).any
      (fun w => decide w.Finished
        && callSeen w == some (.answered, some "provider-call")) = true := by decide +kernel
  obtain ⟨w, hw, htest⟩ := Option.any_eq_true _ _ |>.mp hlost
  obtain ⟨w', hw', htest'⟩ := Option.any_eq_true _ _ |>.mp hkept
  obtain ⟨hdone, hcall⟩ := Bool.and_eq_true_iff.mp htest
  obtain ⟨hdone', hcall'⟩ := Bool.and_eq_true_iff.mp htest'
  exact ⟨w, w', hw, hw', of_decide_eq_true hdone, of_decide_eq_true hdone', beq_iff_eq.mp hcall,
    beq_iff_eq.mp hcall'⟩

end SmartDialer
