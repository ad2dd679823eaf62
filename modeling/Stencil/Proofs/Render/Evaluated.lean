import Stencil.Proofs.Render.Outcome
import Stencil.Proofs.Value.Tree

/-!
# Renders of evaluated data

A render may evaluate its data before anything else. For pure data this is to render its normal
form.

1. `Error.passedOn_eq_custom`: what becomes of the message of a failure.
2. `Engine.render_normalForm`: a render that evaluates its data is a render of the normal form.
3. `Value.evaluate_of_isPure`: what evaluating pure data comes to.
-/

namespace Stencil

variable {σ : Type}

/-- The message of an error that does not end in a position is passed on as it is, unless the error
points somewhere or comes from the output. -/
theorem Error.passedOn_eq_custom {error : Error} (nowhere : error.location = none)
    (inside : error.source? = none) (unplaced : Json.cutPosition? error.message.toList = none) :
    error.passedOn = .custom error.message := by
  have shown : error.display = error.message := by
    unfold source? at inside
    unfold display unlocated
    rw [nowhere]
    dsimp only
    split
    · next reason cause =>
      rw [cause] at inside
      cases inside
    · rfl
  rw [passedOn, shown, Json.passOn, unplaced]

/-- A render that evaluates its data is a render of what the data evaluates to. -/
theorem Engine.render_normalForm {value result : Value σ} {host : σ}
    (evaluated : value.evaluate host = .ok result host) (engine : Engine σ) (job : Job σ)
    (target : Target) :
    engine.render { job with data := value, evaluated := true } target host =
      engine.render { job with data := result, evaluated := false } target host := by
  have before : Job.prepared { job with data := value, evaluated := true } host =
      .ok result host := evaluated
  have given : Job.prepared { job with data := result, evaluated := false } host =
      .ok result host := rfl
  rw [render_of_ok engine target before, render_of_ok engine target given]
  rfl

namespace Value

/-- Evaluating pure data writes it as a tree and reads the tree, and the host stays as it is. This
gives the normal form of the data if it has one, which is exactly if nothing in it fails, and
otherwise the first failure as it is passed on, which keeps a message that does not end in a
position. A normal form is plain data with finite numbers, which evaluating leaves alone, and to
render it is to render the data evaluated beforehand. -/
theorem evaluate_of_isPure {value : Value σ} (pure : value.IsPure) (host : σ) :
    value.evaluate = Tree.toValue <$> value.serialize ∧
      (∀ result after, value.evaluate host = .ok result after ↔
        after = host ∧ NormalForm host value result) ∧
      (∀ error after, value.evaluate host = .error error after ↔
        after = host ∧ ∃ first, FailsWith host first value ∧ error = first.passedOn) ∧
      ((∃ result, NormalForm host value result) ↔ ∀ first, ¬ FailsWith host first value) ∧
      (∀ first, FailsWith host first value → first.location = none → first.source? = none →
        Json.cutPosition? first.message.toList = none →
          value.evaluate host = .error (.custom first.message) host) ∧
      (value.IsNormal → value.evaluate host = .ok value host) ∧
      ∀ result, NormalForm host value result →
        result.IsNormal ∧ (∀ other, result.evaluate other = .ok result other) ∧
          ∀ (engine : Engine σ) (job : Job σ) (target : Target),
            engine.render { job with data := value, evaluated := true } target host =
              engine.render { job with data := result, evaluated := false } target host := by
  have told := evaluation_of_isPure pure host
  refine ⟨value.evaluate_eq_serialize, fun result after => ⟨fun evaluated => ?_, ?_⟩,
    fun error after => ⟨fun evaluated => ?_, ?_⟩, ⟨?_, fun safe => ?_⟩,
    fun first fails nowhere inside unplaced => ?_, fun normal => normal.evaluate host,
    fun result normal => ⟨isNormal_normalForm normal, (isNormal_normalForm normal).evaluate,
      Engine.render_normalForm (told.done normal)⟩⟩
  · rcases told.total with ⟨other, normal⟩ | ⟨first, fails⟩
    · cases evaluated.symm.trans (told.done normal)
      exact ⟨rfl, normal⟩
    · cases evaluated.symm.trans (told.failed fails)
  · rintro ⟨rfl, normal⟩
    exact told.done normal
  · rcases told.total with ⟨other, normal⟩ | ⟨first, fails⟩
    · cases evaluated.symm.trans (told.done normal)
    · cases evaluated.symm.trans (told.failed fails)
      exact ⟨rfl, first, fails, rfl⟩
  · rintro ⟨rfl, first, fails, rfl⟩
    exact told.failed fails
  · rintro ⟨result, normal⟩ first fails
    cases (told.done normal).symm.trans (told.failed fails)
  · exact told.total.resolve_right fun ⟨first, fails⟩ => safe first fails
  · rw [told.failed fails, Error.passedOn_eq_custom nowhere inside unplaced]

/-- A computed list with a number that is no number, and a collection of a computed text. -/
theorem evaluate_of_isPure_nested :
    let value : Value Unit := .map [
      ("a", .computed 0 fun host => .value host (.list [.float (0 / 0), .integer 1])),
      ("b", .collection 1 .enumerator fun host =>
        .member host (.computed 2 fun host => .value host (.text "x")) .done)]
    let result : Value Unit := .map [("a", .list [.null, .integer 1]), ("b", .list [.text "x"])]
    value.IsPure ∧ value.evaluate () = .ok result () := by
  intro value result
  have pure : value.IsPure := by
    refine .map (List.forall_mem_cons.mpr ⟨?_, List.forall_mem_singleton.mpr ?_⟩)
    · exact .computed fun _ => .value (.list (List.forall_mem_cons.mpr
        ⟨.float _, List.forall_mem_singleton.mpr (.integer 1)⟩))
    · exact .collection fun _ => .member (.computed fun _ => .value (.text "x")) fun _ => .done
  have normal : NormalForm () value result := by
    refine .map rfl (.cons ?_ (.cons ?_ .nil))
    · exact .computed rfl (.list (.cons (.notFinite (by decide)) (.cons (.integer 1) .nil)))
    · exact .collection rfl (.cons (.computed rfl (.text "x")) .nil)
  exact ⟨pure, ((evaluate_of_isPure pure ()).2.1 result ()).mpr ⟨rfl, normal⟩⟩

/-- The message of a failure may end in a position in line zero, which is dropped. -/
theorem evaluate_message_cut :
    let first : Error := .custom "boom at line 0 column 1"
    let value : Value Unit := .computed 0 fun host => .failure host first
    value.IsPure ∧ FailsWith () first value ∧ value.evaluate () = .error (.custom "boom") () ∧
      (Error.custom "boom").message ≠ first.message := by
  intro first value
  have message : first.passedOn = .custom "boom" := by decide +kernel
  refine ⟨.computed fun _ => .failure first, .call rfl, ?_, by decide⟩
  rw [evaluate_computed, ← message]
  rfl

end Value

end Stencil
