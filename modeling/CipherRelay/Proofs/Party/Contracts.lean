import CipherRelay.Proofs.Party.Actions
/-!
Contracts of actions. A contract says what an action answers and leaves behind where it succeeds,
and what it leaves behind where it fails. Each part of an action has one rule, so the proof of a
contract follows the action. Where failures leave data that another attempt can work on, the
contract says so once for all parts.
-/
namespace CipherRelay.Party

open Scheme

namespace Action

variable {L ρ α β : Type} {l : L} {Q : α → L → Prop} {R : β → L → Prop}

/-- Whether an action on these data comes to what `Q` says where it succeeds, and to what `E` says
where it fails, whatever is drawn. -/
def Comes (l : L) (action : Action L ρ α) (Q : α → L → Prop) (E : Failure PartyError → L → Prop) :
    Prop :=
  ∀ source : ρ, match action (l, source) with
    | .ok value (after, _) => Q value after
    | .error failure (after, _) => E failure after

namespace Comes

variable {E : Failure PartyError → L → Prop}

/-- A contract may be weakened at both ends. -/
theorem mono {P : α → L → Prop} {F : Failure PartyError → L → Prop} {action : Action L ρ α}
    (h : Comes l action P F) (hOk : ∀ value after, P value after → Q value after)
    (hError : ∀ failure after, F failure after → E failure after) : Comes l action Q E := by
  intro source
  have hAction := h source
  revert hAction
  rcases action (l, source) with ⟨value, after⟩ | ⟨failure, after⟩
  · exact hOk value after.1
  · exact hError failure after.1

theorem pure {value : α} (h : Q value l) : Comes l (Pure.pure value : Action L ρ α) Q E :=
  fun _ => h

theorem fail {error : PartyError} (h : E (.error error) l) :
    Comes l (Action.fail error : Action L ρ α) Q E :=
  fun _ => h

/-- The rest of an action goes on with what a part leaves behind. -/
theorem bind {action : Action L ρ α} {f : α → Action L ρ β}
    (h : Comes l action (fun value after => Comes after (f value) R E) E) :
    Comes l (action >>= f) R E := by
  intro source
  have hAction := h source
  change match EStateM.bind action f (l, source) with
    | .ok value (after, _) => R value after
    | .error failure (after, _) => E failure after
  unfold EStateM.bind
  cases hResult : action (l, source) with
  | ok value after =>
      rw [hResult] at hAction
      exact hAction after.2
  | error failure after =>
      rw [hResult] at hAction
      exact hAction

/-- The rest of an action sees the data as they are. -/
theorem data {f : L → Action L ρ β} (h : Comes l (f l) R E) : Comes l (Action.data >>= f) R E :=
  h

/-- The rest of an action works on the changed data. -/
theorem change {g : L → L} {f : Unit → Action L ρ β} (h : Comes (g l) (f ()) R E) :
    Comes l (Action.change g >>= f) R E :=
  h

/-- A piece of data that is missing ends the action with an error that names it. -/
theorem require {item : String} {piece : Option α} {f : α → Action L ρ β}
    (hMissing : piece = none → E (.error (.missingLocalState item)) l)
    (h : ∀ value, piece = some value → Comes l (f value) R E) :
    Comes l (Action.require item piece >>= f) R E := by
  cases piece with
  | some value => exact h value rfl
  | none => exact fun _ => hMissing rfl

/-- An operation of the scheme leaves the data as they are, also where it fails. -/
theorem engine {operation : Scheme.Outcome α} {f : α → Action L ρ β}
    (hFails : ∀ failure, operation = .error failure → E (failure.mapError .engine) l)
    (h : ∀ value, operation = .ok value → Comes l (f value) R E) :
    Comes l (Action.engine operation >>= f) R E := by
  cases operation with
  | ok value => exact h value rfl
  | error failure => exact fun _ => hFails failure rfl

theorem compute {operation : Except Crash α} {f : α → Action L ρ β}
    (hFails : ∀ crash, operation = .error crash → E (.crash crash) l)
    (h : ∀ value, operation = .ok value → Comes l (f value) R E) :
    Comes l (Action.compute operation >>= f) R E := by
  cases operation with
  | ok value => exact h value rfl
  | error crash => exact fun _ => hFails crash rfl

theorem draw {operation : Draw ρ EngineError α} {f : α → Action L ρ β}
    (hFails : ∀ source failure after, operation source = .error failure after →
      E (failure.mapError .engine) l)
    (h : ∀ source value after, operation source = .ok value after → Comes l (f value) R E) :
    Comes l (Action.draw operation >>= f) R E := by
  refine bind fun source => ?_
  cases hDraw : operation source with
  | ok value after =>
      rw [draw_eq hDraw]
      exact h source value after hDraw
  | error failure after =>
      rw [draw_eq_error hDraw]
      exact hFails source failure after hDraw

/-- A payload is decoded, or the action ends there. -/
theorem decode [Artifact α] {payload : Bytes} {f : α → Action L ρ β}
    (hMalformed : (Artifact.decode? payload : Option α) = none →
      E (.error (.engine (.serialization "malformed artifact"))) l)
    (h : ∀ value, Artifact.decode? payload = some value → Comes l (f value) R E) :
    Comes l (Action.decode payload >>= f) R E := by
  cases hPayload : (Artifact.decode? payload : Option α) with
  | some value =>
      have hDecode : (Scheme.decode payload : Except EngineError α) = .ok value := by
        rw [Scheme.decode, hPayload]
      rw [Action.decode, hDecode]
      exact h value hPayload
  | none =>
      have hDecode : (Scheme.decode payload : Except EngineError α) =
          .error (.serialization "malformed artifact") := by
        rw [Scheme.decode, hPayload]
      rw [Action.decode, hDecode]
      exact fun _ => hMalformed hPayload

end Comes

end Action

/-- Whether a failure may be had. That a piece of data is missing may be had only where something
has failed before. -/
def Tame (clean : Prop) : Failure PartyError → Prop
  | .error (.unknownState _) | .error (.unexpectedTag _) => False
  | .error (.missingLocalState _) => ¬clean
  | _ => True

/-- The scheme never fails for want of a piece of data. -/
theorem tame_engine (clean : Prop) (failure : Failure EngineError) :
    Tame clean (failure.mapError .engine) := by
  cases failure <;> trivial

namespace Action

variable {L ρ α β : Type} {clean : Prop} {keeps : L → Prop} {l : L} {Q : α → L → Prop}
  {R : β → L → Prop}

/-- Whether an action on these data, as long as these are such as to be kept, comes to what `Q`
says, or fails as it may and keeps them such. -/
def Meets (clean : Prop) (keeps : L → Prop) (l : L) (action : Action L ρ α)
    (Q : α → L → Prop) : Prop :=
  keeps l → ∀ source : ρ, match action (l, source) with
    | .ok value (after, _) => Q value after
    | .error failure (after, _) => Tame clean failure ∧ keeps after

namespace Meets

/-- The data may be taken to be such as are to be kept. -/
theorem given {action : Action L ρ α} (h : keeps l → Meets clean keeps l action Q) :
    Meets clean keeps l action Q :=
  fun hKeeps => h hKeeps hKeeps

theorem pure {value : α} (h : Q value l) :
    Meets clean keeps l (Pure.pure value : Action L ρ α) Q :=
  fun _ _ => h

theorem fail {error : PartyError} (h : Tame clean (.error error)) :
    Meets clean keeps l (Action.fail error : Action L ρ α) Q :=
  fun hKeeps _ => ⟨h, hKeeps⟩

/-- A part that has a contract of its own. -/
theorem bind {action : Action L ρ α} {f : α → Action L ρ β}
    (h : Meets clean keeps l action fun value after =>
      keeps after ∧ Meets clean keeps after (f value) R) :
    Meets clean keeps l (action >>= f) R := by
  intro hKeeps
  have hAction : Comes l action
      (fun value after => keeps after ∧ Meets clean keeps after (f value) R)
      fun failure after => Tame clean failure ∧ keeps after := h hKeeps
  exact Comes.bind (hAction.mono (fun _ _ hRest => hRest.2 hRest.1) fun _ _ => id)

/-- The last part of an action. -/
theorem last {action : Action L ρ α} (h : Meets clean keeps l (action >>= Pure.pure) Q) :
    Meets clean keeps l action Q := by
  rwa [bind_pure] at h

/-- The rest of an action sees the data as they are. -/
theorem data {f : L → Action L ρ β} (h : Meets clean keeps l (f l) R) :
    Meets clean keeps l (Action.data >>= f) R :=
  h

/-- The rest of an action works on the changed data. -/
theorem change {g : L → L} {f : Unit → Action L ρ β} (hKeeps : keeps l → keeps (g l))
    (h : Meets clean keeps (g l) (f ()) R) : Meets clean keeps l (Action.change g >>= f) R :=
  fun hBefore => h (hKeeps hBefore)

/-- Where nothing has failed before, the piece is there. -/
theorem require {item : String} {piece : Option α} {f : α → Action L ρ β}
    (hThere : clean → piece.isSome) (h : ∀ value, piece = some value →
      Meets clean keeps l (f value) R) :
    Meets clean keeps l (Action.require item piece >>= f) R := by
  refine fun hKeeps => Comes.require (fun hMissing => ⟨fun hClean => ?_, hKeeps⟩)
    fun value hPiece => h value hPiece hKeeps
  exact absurd (hThere hClean) (by simp [hMissing])

theorem engine {operation : Scheme.Outcome α} {f : α → Action L ρ β}
    (h : ∀ value, Meets clean keeps l (f value) R) :
    Meets clean keeps l (Action.engine operation >>= f) R :=
  fun hKeeps => Comes.engine (fun failure _ => ⟨tame_engine clean failure, hKeeps⟩)
    fun value _ => h value hKeeps

theorem decode [Artifact α] {payload : Bytes} {f : α → Action L ρ β}
    (h : ∀ value, Meets clean keeps l (f value) R) :
    Meets clean keeps l (Action.decode payload >>= f) R :=
  engine h

theorem compute {operation : Except Crash α} {f : α → Action L ρ β}
    (h : ∀ value, Meets clean keeps l (f value) R) :
    Meets clean keeps l (Action.compute operation >>= f) R :=
  fun hKeeps => Comes.compute (fun _ _ => ⟨trivial, hKeeps⟩) fun value _ => h value hKeeps

theorem draw {operation : Draw ρ EngineError α} {f : α → Action L ρ β}
    (h : ∀ value, Meets clean keeps l (f value) R) :
    Meets clean keeps l (Action.draw operation >>= f) R :=
  fun hKeeps => Comes.draw (fun _ failure _ _ => ⟨tame_engine clean failure, hKeeps⟩)
    fun _ value _ _ => h value hKeeps

end Meets

end Action

end CipherRelay.Party
