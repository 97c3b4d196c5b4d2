import LedgerEntity.Proofs.Codec.CacheSteps
import LedgerEntity.Session

/-!
# Codecs of a session do not disturb each other

What a run of steps does to one codec of a session.

A step puts at most one request to the codec that it names, and the clock moves
only in a step that says so.  All other codecs stay as they are, and so does the
whole session if there is no codec of that name.  Hence the codec at an index
goes through a run as it would go alone through the requests that are put to it,
each at the time that the session has then.
-/

namespace LedgerEntity

/-- The request that an action puts to its codec, if it puts one. -/
def Action.request? : Action → Option Request
  | request r => some r
  | insertReading key (.ok id) => some (.insert key id)
  | _ => none

/-- How far an action moves the clock. -/
def Action.elapsed : Action → Int
  | advance nanoseconds => nanoseconds
  | _ => 0

namespace Session

section Definitions

variable (s : Session)

/-- The session after a run. -/
def after
    (steps : List (Nat × Action)) :
    Session :=
  steps.foldl (fun s step => (s.step step.1 step.2).session) s

/-- The requests that an action puts to the codec at an index, at the time of the session. -/
def requestsOf
    (index : Nat)
    (step : Nat × Action) :
    List (Int × Request) :=
  if step.1 = index then step.2.request?.toList.map fun r => (s.now, r) else []

end Definitions

/-- The requests that a run puts to the codec at an index, each at its time. -/
def requestsTo
    (index : Nat)
    (s : Session) :
    List (Nat × Action) → List (Int × Request)
  | [] => []
  | step :: later =>
      s.requestsOf index step ++ requestsTo index (s.step step.1 step.2).session later

section OneStep

variable {s : Session}
variable {index : Nat}
variable (action : Action)

theorem codec?_set_self
    (h : (s.codec? index).isSome)
    (codec : Codec) :
    codec? { s with codecs := s.codecs.set index (some codec) } index = some codec := by
  have hlt : index < s.codecs.length := by
    by_contra hge
    simp [codec?, List.getElem?_eq_none (Nat.not_lt.1 hge)] at h
  simp [codec?, List.getElem?_set_self hlt]

theorem codec?_set_of_ne
    {other : Nat}
    (hne : other ≠ index)
    (codec : Codec) :
    codec? { s with codecs := s.codecs.set index (some codec) } other = s.codec? other := by
  simp [codec?, List.getElem?_set_ne hne.symm]

/-- A step for a codec that does not exist is refused and changes nothing. -/
theorem step_of_codec?_eq_none
    (h : s.codec? index = none) :
    s.step index action = ⟨.noCodec, s, none, []⟩ := by
  rw [step, h]

/-- What a step for a codec that exists leaves of the session. -/
theorem session_step
    {codec : Codec}
    (h : s.codec? index = some codec) :
    (s.step index action).session.now = s.now + action.elapsed ∧
    (s.step index action).session.codec? index =
      some (codec.after (action.request?.toList.map fun r => (s.now, r))) ∧
    ∀ other, other ≠ index →
      (s.step index action).session.codec? other = s.codec? other := by
  have hsome : (s.codec? index).isSome := by
    rw [h]
    rfl
  have hask : ∀ r : Request,
      (s.ask index codec r).session.now = s.now + 0 ∧
      (s.ask index codec r).session.codec? index = some (codec.after [(s.now, r)]) ∧
      ∀ other, other ≠ index →
        (s.ask index codec r).session.codec? other = s.codec? other :=
    fun r =>
      ⟨(add_zero s.now).symm, codec?_set_self hsome _, fun _ hne => codec?_set_of_ne hne _⟩
  simp only [step, h]
  cases action with
  | advance nanoseconds => exact ⟨rfl, h, fun _ _ => rfl⟩
  | inspect => exact ⟨(add_zero s.now).symm, h, fun _ _ => rfl⟩
  | request r => exact hask r
  | insertReading key reading =>
      cases reading with
      | ok id => exact hask (.insert key id)
      | error e => exact ⟨(add_zero s.now).symm, h, fun _ _ => rfl⟩

/-- A step leaves the other codecs alone. -/
theorem codec?_step_of_ne
    {other : Nat}
    (hne : other ≠ index) :
    (s.step index action).session.codec? other = s.codec? other := by
  cases h : s.codec? index with
  | none => rw [step_of_codec?_eq_none action h]
  | some codec => exact (session_step action h).2.2 other hne

end OneStep

section Runs

variable (s : Session)
variable (index : Nat)

/-- A step does to a codec what the requests do that it puts to it. -/
theorem codec?_step
    (step : Nat × Action) :
    (s.step step.1 step.2).session.codec? index =
      (s.codec? index).map fun codec => codec.after (s.requestsOf index step) := by
  obtain ⟨named, action⟩ := step
  by_cases hnamed : named = index
  · subst hnamed
    cases h : s.codec? named with
    | none =>
        rw [step_of_codec?_eq_none action h]
        simp [h]
    | some codec =>
        rw [(session_step action h).2.1]
        simp [requestsOf]
  · rw [codec?_step_of_ne action (Ne.symm hnamed)]
    simp [requestsOf, hnamed, Codec.after]

/--
A codec goes through the run of a session as it would go alone through the
requests that are put to it.
-/
theorem codec?_after
    (steps : List (Nat × Action)) :
    (s.after steps).codec? index =
      (s.codec? index).map fun codec => codec.after (requestsTo index s steps) := by
  induction steps generalizing s with
  | nil =>
      simp [after, requestsTo, Codec.after]
  | cons step later ih =>
      have hlater := ih (s.step step.1 step.2).session
      rw [codec?_step] at hlater
      rw [after, List.foldl_cons]
      refine hlater.trans ?_
      simp [requestsTo, Codec.after, Function.comp_def]

/-- A run that never names a codec leaves it as it was. -/
theorem codec?_after_of_not_named
    {steps : List (Nat × Action)}
    (h : ∀ step ∈ steps, step.1 ≠ index) :
    (s.after steps).codec? index = s.codec? index := by
  have hnone : requestsTo index s steps = [] := by
    induction steps generalizing s with
    | nil =>
        rfl
    | cons step later ih =>
        obtain ⟨hfirst, hlater⟩ := List.forall_mem_cons.1 h
        rw [requestsTo, ih _ hlater, requestsOf, if_neg hfirst, List.append_nil]
  rw [codec?_after, hnone]
  simp [Codec.after]

end Runs

end Session
end LedgerEntity
