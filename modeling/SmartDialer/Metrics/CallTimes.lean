import Mathlib.Algebra.Order.BigOperators.Group.List
import SmartDialer.Conc.History
import SmartDialer.Protocol.Lifecycle

/-!
# The times of a call

`transition_call` writes down when a call was INITIATED, RINGING, ANSWERED and CONNECTED, and when
it ended. `average_talk_time_seconds` and `average_setup_time_ms` of
`app/repositories/call_repo.py` subtract these times from one another, and the pacing engine and
the dashboards build on the averages without looking whether they make sense.

A time is written for a state of a certain rank, and ranks rise, so of two times the one further
down the list was written later. It may have been read earlier: `transition_call` reads the
clock before it awaits the write, and the filter of the write says nothing of times. On a clock
that does not go back, two times are out of order by no more than a write takes. A call may skip
states, and then it skips their times.
-/

namespace SmartDialer

open Store Conc

/-! ## The times, and their averages -/

/-- The times of a call, in the order of its life. -/
def Call.stamps (d : Call) : List (Option Time) :=
  [d.initiatedAt, d.ringingAt, d.answeredAt, d.connectedAt, d.endedAt]

/-- The `i`-th of the times has been written down. -/
def Call.StampedAt (d : Call) (i : Nat) (t : Time) : Prop := d.stamps[i]? = some (some t)

/-- `$avg`, exactly; nothing where there is nothing to average. -/
def average (values : List Int) : Option ℚ :=
  if values.isEmpty then none else some (values.sum / values.length)

namespace CallRepository

/-- What `$subtract` makes of the calls of the campaign that have both times. -/
def differences (campaignId : String) (earlierAt laterAt : Call → Option Time)
    (calls : Collection Call) : List Int :=
  (calls.find (fun d => d.campaignId == campaignId)).filterMap fun d =>
    (earlierAt d).bind fun earlier => (laterAt d).map fun later => later - earlier

/-- `average_talk_time_seconds`. -/
def averageTalkTimeSeconds (campaignId : String) (calls : Collection Call) : ℚ :=
  match average (differences campaignId Call.answeredAt Call.endedAt calls) with
  | some average => average / 1000
  | none => 0

/-- `average_setup_time_ms`. -/
def averageSetupTimeMs (campaignId : String) (calls : Collection Call) : ℚ :=
  match average (differences campaignId Call.initiatedAt Call.ringingAt calls) with
  | some average => average
  | none => 0

end CallRepository

/-! ## One call -/

/-- The times of a call, by writes that take effect at most `delay` after the clock was read. -/
structure Call.Timed (d : Call) (delay : Int) (Read : Time → Prop) : Prop where
  /-- A time is written on reaching its state; the first of them is INITIATED, of rank 2. -/
  reached : ∀ i t, d.StampedAt i t → i + 2 ≤ rank d.state
  ordered : ∀ i j t u, i < j → d.StampedAt i t → d.StampedAt j u → t ≤ u + delay
  read : ∀ i t, d.StampedAt i t → Read t

section

variable {delay : Int} {Read Read' : Time → Prop} {now : Time} {d d' : Call}

theorem stamps_advance (t : CallState) (reason : Option String) :
    ((CallRepository.advance now t reason).apply d).stamps
      = if 2 ≤ rank t then d.stamps.set (rank t - 2) (some now) else d.stamps := by
  cases t <;> rfl

theorem timed_newCall {id campaignId agentId borrowerId providerName workerId : String}
    {attempt : Nat} : (CallRepository.newCall id now campaignId agentId borrowerId providerName
      workerId attempt).Timed delay Read := by
  have hnone : ∀ i t, ¬(CallRepository.newCall id now campaignId agentId borrowerId providerName
      workerId attempt).StampedAt i t := by
    intro i t h
    rcases i with - | - | - | - | - | i <;> cases h
  exact ⟨fun i t h => absurd h (hnone i t), fun i _ t _ _ h => absurd h (hnone i t),
    fun i t h => absurd h (hnone i t)⟩

/-- A step writes one time, and it is the last there is. -/
theorem stampedAt_advance {t : CallState} (reason : Option String) {i : Nat} {u : Time}
    (hstamp : ((CallRepository.advance now t reason).apply d).StampedAt i u) :
    d.StampedAt i u ∨ i + 2 = rank t ∧ u = now := by
  rw [Call.StampedAt, stamps_advance] at hstamp
  split at hstamp
  · rw [List.getElem?_set] at hstamp
    split at hstamp
    · split at hstamp
      · exact .inr ⟨by omega, (Option.some.inj (Option.some.inj hstamp)).symm⟩
      · cases hstamp
    · exact .inl hstamp
  · exact .inl hstamp

/-- **A step of a call** keeps its times in order. -/
theorem Call.Timed.advance (h : d.Timed delay Read) {t : CallState} (hrank : rank d.state < rank t)
    (reason : Option String) (hread : ∀ u, Read u → u ≤ now + delay ∧ Read' u) (hnow : Read' now) :
    ((CallRepository.advance now t reason).apply d).Timed delay Read' where
  reached i u hstamp := by
    rcases stampedAt_advance reason hstamp with hold | ⟨hi, -⟩
    · exact (h.reached i u hold).trans hrank.le
    · exact hi.le
  ordered i j u v hij hi hj := by
    rcases stampedAt_advance reason hj with hj | ⟨hj, rfl⟩
    · rcases stampedAt_advance reason hi with hi | ⟨hi, -⟩
      · exact h.ordered i j u v hij hi hj
      · -- nothing was written behind the new time
        have := h.reached j v hj
        omega
    · rcases stampedAt_advance reason hi with hi | ⟨hi, -⟩
      · exact (hread u (h.read i u hi)).1
      · omega
  read i u hstamp := by
    rcases stampedAt_advance reason hstamp with hold | ⟨-, rfl⟩
    · exact (hread u (h.read i u hold)).2
    · exact hnow

/-- What was written stays. -/
theorem Call.Timed.kept (h : d.Timed delay Read) {t : CallState} (hrank : rank d.state < rank t)
    (reason : Option String) {i : Nat} {u : Time} (hstamp : d.StampedAt i u) :
    ((CallRepository.advance now t reason).apply d).StampedAt i u := by
  have hi := h.reached i u hstamp
  rw [Call.StampedAt, stamps_advance]
  split
  · rw [List.getElem?_set_ne (by omega)]
    exact hstamp
  · exact hstamp

theorem Call.Timed.imp (h : d.Timed delay Read) (hread : ∀ u, Read u → Read' u)
    (hstamps : d'.stamps = d.stamps) (hstate : d'.state = d.state) : d'.Timed delay Read' where
  reached i t hi := hstate ▸ h.reached i t (hstamps ▸ hi : d.stamps[i]? = some (some t))
  ordered i j t u hij hi hj :=
    h.ordered i j t u hij (hstamps ▸ hi : d.stamps[i]? = some (some t))
      (hstamps ▸ hj : d.stamps[j]? = some (some u))
  read i t hi := hread t (h.read i t (hstamps ▸ hi : d.stamps[i]? = some (some t)))

/-- What an operation makes of the times of a call. -/
theorem timed_of_rewritten {o : Op} {c : Choice} (hwf : d.WellFormed) (h : d.Timed delay Read)
    (hread : ∀ u, Read u → u ≤ c.now + delay ∧ Read' u) (hnow : Read' c.now)
    (hre : Rewritten (o.callWrite c) d d') :
    d'.Timed delay Read' ∧ ∀ i u, d.StampedAt i u → d'.StampedAt i u := by
  cases hre with
  | same => exact ⟨h.imp (fun u hu => (hread u hu).2) rfl rfl, fun _ _ => id⟩
  | written v hv _ hp =>
      cases o, v, hv using Op.callWrite_cases with
      | transitionCall callId t reason =>
          have hrank := hwf.advanceable_iff.mp hp
          exact ⟨h.advance hrank reason hread hnow, fun i u => h.kept hrank reason⟩
      | attachProviderCallId callId providerCallId =>
          exact ⟨h.imp (fun u hu => (hread u hu).2) rfl rfl, fun _ _ => id⟩

end

/-! ## Averages -/

section

variable {delay : Int} {Read : Time → Prop} {calls : Collection Call} {campaignId : String}

/-- An average is at least what all the values are. -/
theorem le_average {values : List Int} {bound : Int} (h : ∀ v ∈ values, bound ≤ v) {a : ℚ}
    (ha : average values = some a) : (bound : ℚ) ≤ a := by
  rw [average] at ha
  split at ha
  · cases ha
  · rename_i hne
    obtain rfl := Option.some.inj ha
    have hsum : values.length • bound ≤ values.sum := List.card_nsmul_le_sum values bound h
    have hlen : 0 < values.length := List.length_pos_iff.mpr fun hnil => hne (hnil ▸ rfl)
    rw [le_div_iff₀ (Nat.cast_pos.mpr hlen), mul_comm]
    rw [nsmul_eq_mul] at hsum
    exact_mod_cast hsum

/-- Of two times, the one that comes later in the life of a call is hardly the earlier one. -/
theorem le_differences (h : ∀ k d, calls.get k = some d → d.Timed delay Read) {i j : Nat}
    (hij : i < j) {earlierAt laterAt : Call → Option Time}
    (hfrom : ∀ d : Call, d.stamps[i]? = some (earlierAt d))
    (hto : ∀ d : Call, d.stamps[j]? = some (laterAt d)) :
    ∀ v ∈ CallRepository.differences campaignId earlierAt laterAt calls, -delay ≤ v := by
  intro v hv
  obtain ⟨d, hd, hv⟩ := List.mem_filterMap.mp hv
  obtain ⟨earlier, hearlier, hv⟩ := Option.bind_eq_some_iff.mp hv
  obtain ⟨later, hlater, rfl⟩ := Option.map_eq_some_iff.mp hv
  have htimed := h d.id d (Collection.mem_find.mp hd).1
  have hle : earlier ≤ later + delay := htimed.ordered i j earlier later hij
    ((hfrom d).trans (congrArg some hearlier)) ((hto d).trans (congrArg some hlater))
  exact neg_le_sub_iff_le_add'.mpr (by rwa [add_comm])

/-- The averages, where a write takes no longer than `delay`. -/
theorem le_averages (hdelay : 0 ≤ delay)
    (h : ∀ k d, calls.get k = some d → d.Timed delay Read) :
    -(delay : ℚ) / 1000 ≤ CallRepository.averageTalkTimeSeconds campaignId calls
      ∧ -(delay : ℚ) ≤ CallRepository.averageSetupTimeMs campaignId calls := by
  have hnone : -(delay : ℚ) ≤ 0 := by
    rw [Left.neg_nonpos_iff]
    exact_mod_cast hdelay
  constructor
  · rw [CallRepository.averageTalkTimeSeconds]
    split
    · rename_i a ha
      have hle := le_average (le_differences h (i := 2) (j := 4) (by decide)
        (fun _ => rfl) fun _ => rfl) ha
      rw [Int.cast_neg] at hle
      exact div_le_div_of_nonneg_right hle (by decide)
    · exact div_nonpos_of_nonpos_of_nonneg hnone (by decide)
  · rw [CallRepository.averageSetupTimeMs]
    split
    · rename_i a ha
      have hle := le_average (le_differences h (i := 0) (j := 1) (by decide)
        (fun _ => rfl) fun _ => rfl) ha
      rwa [Int.cast_neg] at hle
    · exact hnone

end

/-! ## Every run -/

section

variable {cfg : Settings} {delay : Int} {w w' : World (dialer cfg).recorded}

/--
The runs in which a write takes effect at most `delay` after its process has read the clock: a
reading is no further behind the readings whose writes have come first.
-/
def delayed (delay : Int) (cfg : Settings) : Policy (dialer cfg).recorded where
  task _ := True
  run _ _ c s := ∀ m ∈ s.2, m.choice.now ≤ c.now + delay

instance (delay : Int) (cfg : Settings) : (delayed delay cfg).Checkable where
  task _ := .isTrue trivial
  run _ _ c s := inferInstanceAs (Decidable (∀ m ∈ s.2, m.choice.now ≤ c.now + delay))

/-- A clock has been read, and this was the reading. -/
def ReadSoFar (w : World (dialer cfg).recorded) (t : Time) : Prop :=
  ∃ m ∈ w.st.2, m.choice.now = t

/-- All calls are timed by the clock of the run. -/
def CallsTimed (delay : Int) (w : World (dialer cfg).recorded) : Prop :=
  ∀ k d, w.st.1.calls.get k = some d → d.Timed delay (ReadSoFar w)

/-- One step of a run: the times stay in order, and what was written stays. -/
theorem callsTimed_step
    (h : Reachable (delayed delay cfg) (Blank NoCalls) w)
    (htimed : CallsTimed delay w) (hs : Step (delayed delay cfg) w w') :
    CallsTimed delay w' ∧ ∀ k d i t, w.st.1.calls.get k = some d → d.StampedAt i t →
      ∃ d', w'.st.1.calls.get k = some d' ∧ d'.StampedAt i t := by
  have hwf : CallsWellFormed w.st.1 := by
    have hrun := h.forget (P := Policy.any (dialer cfg)) (fun _ _ => trivial)
      fun _ _ _ _ _ => trivial
    exact (lifecycle_reachable (hrun.unrestricted fun _ => NoCalls.wellFormed)).1
  cases hs with
  | spawn _ _ => exact ⟨htimed, fun k d i t hd ht => ⟨d, hd, ht⟩⟩
  | crash _ _ _ _ => exact ⟨htimed, fun k d i t hd ht => ⟨d, hd, ht⟩⟩
  | run j o _ c _ hc =>
      have hread : ∀ u, ReadSoFar w u → u ≤ c.now + delay
          ∧ ∃ m ∈ (⟨j, o, c, w.st.1⟩ : Moment (dialer cfg)) :: w.st.2, m.choice.now = u := by
        rintro u ⟨m, hm, rfl⟩
        exact ⟨hc m hm, m, List.mem_cons_of_mem _ hm, rfl⟩
      have hnow : ∃ m ∈ (⟨j, o, c, w.st.1⟩ : Moment (dialer cfg)) :: w.st.2,
          m.choice.now = c.now := ⟨_, List.mem_cons_self, rfl⟩
      constructor
      · intro k d' hd'
        rcases call_of_exec hd' with ⟨hnew, -⟩ | ⟨d, hd, hre⟩
        · cases o, d', hnew using Op.callInsert_cases with
          | insertCall _ _ _ _ _ _ => exact timed_newCall
        · exact (timed_of_rewritten (hwf k d hd) (htimed k d hd) hread hnow hre).1
      · intro k d i t hd ht
        obtain ⟨d', hd', hre⟩ := call_exec (i := j) (o := o) (c := c) hd
        exact ⟨d', hd',
          (timed_of_rewritten (hwf k d hd) (htimed k d hd) hread hnow hre).2 i t ht⟩

/--
**The times of a call are in order, but for the time a write takes.** In every run from a state
without calls, of any tasks in any interleaving, with failures, cancellations and crashes anywhere
and writes that take effect at most `delay` after the clock was read: of two times of a call, the
one that belongs to the earlier state is later by no more than that; each was read off the clock
after the call had reached its state; whatever happens afterwards, it stays. Hence the average
talk time and setup time of a campaign are at least `-delay`: if writes take no time, they are
not negative.
-/
theorem call_times_ordered (hdelay : 0 ≤ delay)
    (h : Reachable (delayed delay cfg) (Blank NoCalls) w) :
    (∀ k d, w.st.1.calls.get k = some d → d.Timed delay (ReadSoFar w))
      ∧ (∀ w', Relation.ReflTransGen (Step (delayed delay cfg)) w w' →
        ∀ k d i t, w.st.1.calls.get k = some d → d.StampedAt i t →
          ∃ d', w'.st.1.calls.get k = some d' ∧ d'.StampedAt i t)
      ∧ ∀ campaignId,
        -(delay : ℚ) / 1000 ≤ CallRepository.averageTalkTimeSeconds campaignId w.st.1.calls
          ∧ -(delay : ℚ) ≤ CallRepository.averageSetupTimeMs campaignId w.st.1.calls := by
  have htimed : CallsTimed delay w := by
    induction h with
    | init h =>
        intro k d hd
        rw [h.1.get k] at hd
        cases hd
    | tail h hs ih => exact (callsTimed_step h ih hs).1
  refine ⟨htimed, fun w' hrun => ?_, fun campaignId => le_averages hdelay htimed⟩
  have hkept : (Reachable (delayed delay cfg) (Blank NoCalls) w'
      ∧ CallsTimed delay w') ∧ ∀ k d i t, w.st.1.calls.get k = some d → d.StampedAt i t →
        ∃ d', w'.st.1.calls.get k = some d' ∧ d'.StampedAt i t := by
    induction hrun with
    | refl => exact ⟨⟨h, htimed⟩, fun k d i t hd ht => ⟨d, hd, ht⟩⟩
    | tail _ hs ih =>
        obtain ⟨⟨hreach, hmid⟩, hkept⟩ := ih
        obtain ⟨hnext, hstep⟩ := callsTimed_step hreach hmid hs
        refine ⟨⟨.tail hreach hs, hnext⟩, fun k d i t hd ht => ?_⟩
        obtain ⟨d', hd', ht'⟩ := hkept k d i t hd ht
        exact hstep k d' i t hd' ht'
  exact hkept.2

end

/-- A call that ends when it has been answered, by a clock that was read a second before. -/
def overtakenCall : List (Label (dialer {})) :=
  oneDial
    ++ .spawn (.processEvent (eventOf "ANSWERED")) :: List.replicate 6 (.run 1 { now := 2000 })
    ++ .spawn (.processEvent (eventOf "COMPLETED")) :: List.replicate 7 (.run 2 { now := 1000 })

/-- Such a run: the talk time is negative, and as far as it can be. -/
theorem call_times_ordered_overtaken :
    ∃ w : World (dialer {}).recorded, Reachable (delayed 1000 {}) (Blank NoCalls) w
      ∧ CallRepository.averageTalkTimeSeconds "campaign" w.st.1.calls = -1
      ∧ ∀ campaignId, -1 ≤ CallRepository.averageTalkTimeSeconds campaignId w.st.1.calls := by
  obtain ⟨w, hw, htest⟩ := Reachable.of_play (delayed 1000 {})
    (show Blank (M := dialer {}) NoCalls (oneAgent, []) from ⟨oneAgent_fresh.noCalls, rfl⟩)
    (overtakenCall.map Label.recorded)
    (fun w => decide (CallRepository.averageTalkTimeSeconds "campaign" w.st.1.calls = -1))
    (by decide +kernel)
  refine ⟨w, hw, of_decide_eq_true htest, fun campaignId => ?_⟩
  refine le_trans (le_of_eq ?_) ((call_times_ordered (by decide) hw).2.2 campaignId).1
  decide +kernel

end SmartDialer
