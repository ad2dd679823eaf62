import Mathlib.Data.List.Forall2
import Stencil.Proofs.Value.Pure

/-!
# Normal forms

What evaluating pure data comes to, told without a run of the host. In some state of the host, which
stays as it is, data either has a normal form, or there is a first thing in it that fails.

1. `Value.NormalForm`, `Value.FailsWith`: the normal form, and the first failure, in the order of
   lists and of names. A collection fails before its members do.
2. `Value.Cases.all`: an induction over data and over whatever the host may give for it.
3. `Value.evaluation_of_isPure`: pure data evaluates to its normal form, or fails with its first
   failure.
4. `Value.isNormal_normalForm`, `Value.IsNormal.evaluate`: a normal form holds nothing that would
   have to be evaluated, and is left alone.
-/

namespace Stencil

variable {σ : Type}

/-! ## Normal forms -/

/-- In a state of the host that stays, the data that some data stands for: whatever the host
computes is replaced by what it comes to, a collection by the list of its members, and a number that
is not finite by null. -/
inductive Value.NormalForm (host : σ) : Value σ → Value σ → Prop where
  | null : NormalForm host .null .null
  | bool (value : Bool) : NormalForm host (.bool value) (.bool value)
  | integer (value : Int64) : NormalForm host (.integer value) (.integer value)
  | finite {value : Float} (finite : value.isFinite = true) :
      NormalForm host (.float value) (.float value)
  | notFinite {value : Float} (notFinite : value.isFinite = false) :
      NormalForm host (.float value) .null
  | text (value : String) : NormalForm host (.text value) (.text value)
  | list {items results : List (Value σ)} (each : List.Forall₂ (NormalForm host) items results) :
      NormalForm host (.list items) (.list results)
  | map {entries results : List (String × Value σ)}
      (names : results.map Prod.fst = entries.map Prod.fst)
      (each : List.Forall₂ (NormalForm host) (entries.map Prod.snd) (results.map Prod.snd)) :
      NormalForm host (.map entries) (.map results)
  | computed {id : Nat} {call : σ → Reply σ} {after : σ} {given result : Value σ}
      (called : call host = .value after given) (normal : NormalForm host given result) :
      NormalForm host (.computed id call) result
  | collection {id : Nat} {kind : CollectionKind} {pull : σ → Pull σ} {after : σ}
      {items results : List (Value σ)} (handed : (pull host).members = .ok items after)
      (each : List.Forall₂ (NormalForm host) items results) :
      NormalForm host (.collection id kind pull) (.list results)

/-- In a state of the host that stays, the first failure in some data. Everything in front of it has
a normal form, and a collection has handed out all members before one of them is evaluated. -/
inductive Value.FailsWith (host : σ) (error : Error) : Value σ → Prop where
  | list {before after results : List (Value σ)} {item : Value σ}
      (earlier : List.Forall₂ (NormalForm host) before results)
      (fails : FailsWith host error item) : FailsWith host error (.list (before ++ item :: after))
  | map {before after : List (String × Value σ)} {results : List (Value σ)} {name : String}
      {value : Value σ} (earlier : List.Forall₂ (NormalForm host) (before.map Prod.snd) results)
      (fails : FailsWith host error value) :
      FailsWith host error (.map (before ++ (name, value) :: after))
  | call {id : Nat} {call : σ → Reply σ} {after : σ} (failed : call host = .failure after error) :
      FailsWith host error (.computed id call)
  | computed {id : Nat} {call : σ → Reply σ} {after : σ} {given : Value σ}
      (called : call host = .value after given) (fails : FailsWith host error given) :
      FailsWith host error (.computed id call)
  | pull {id : Nat} {kind : CollectionKind} {pull : σ → Pull σ} {after : σ}
      (failed : (pull host).members = .error error after) :
      FailsWith host error (.collection id kind pull)
  | collection {id : Nat} {kind : CollectionKind} {pull : σ → Pull σ} {rest : σ}
      {before after results : List (Value σ)} {item : Value σ}
      (handed : (pull host).members = .ok (before ++ item :: after) rest)
      (earlier : List.Forall₂ (NormalForm host) before results)
      (fails : FailsWith host error item) : FailsWith host error (.collection id kind pull)

/-- Plain data in which every number is finite. -/
inductive Value.IsNormal : Value σ → Prop where
  | null : Value.IsNormal .null
  | bool (value : Bool) : Value.IsNormal (.bool value)
  | integer (value : Int64) : Value.IsNormal (.integer value)
  | float {value : Float} (finite : value.isFinite = true) : Value.IsNormal (.float value)
  | text (value : String) : Value.IsNormal (.text value)
  | list {items : List (Value σ)} (all : ∀ item ∈ items, Value.IsNormal item) :
      Value.IsNormal (.list items)
  | map {entries : List (String × Value σ)} (all : ∀ entry ∈ entries, Value.IsNormal entry.2) :
      Value.IsNormal (.map entries)

/-! ## Induction -/

namespace Value

/-- A property that data has if all parts of it have it, and if whatever the host may give for it
has it. -/
structure Cases (P : Value σ → Prop) : Prop where
  null : P .null
  bool (value : Bool) : P (.bool value)
  integer (value : Int64) : P (.integer value)
  float (value : Float) : P (.float value)
  text (value : String) : P (.text value)
  list (items : List (Value σ)) (each : ∀ item ∈ items, P item) : P (.list items)
  map (entries : List (String × Value σ)) (each : ∀ value ∈ entries.map Prod.snd, P value) :
    P (.map entries)
  computed (id : Nat) (call : σ → Reply σ)
    (given : ∀ host after result, call host = .value after result → P result) :
    P (.computed id call)
  collection (id : Nat) (kind : CollectionKind) (pull : σ → Pull σ)
    (handed : ∀ host items after, (pull host).members = .ok items after → ∀ item ∈ items, P item) :
    P (.collection id kind pull)

namespace Cases

variable {P : Value σ → Prop}

mutual

/-- All data has the property. -/
theorem all (cases : Cases P) : (value : Value σ) → P value
  | .null => cases.null
  | .bool value => cases.bool value
  | .integer value => cases.integer value
  | .float value => cases.float value
  | .text value => cases.text value
  | .list items => cases.list items (cases.allItems items)
  | .map entries => cases.map entries (cases.allEntries entries)
  | .computed id call => cases.computed id call fun host => cases.allReply (call host)
  | .collection id kind pull => cases.collection id kind pull fun host => cases.allPull (pull host)

theorem allItems (cases : Cases P) : (items : List (Value σ)) → ∀ item ∈ items, P item
  | [] => List.forall_mem_nil P
  | item :: items => List.forall_mem_cons.mpr ⟨cases.all item, cases.allItems items⟩

theorem allEntries (cases : Cases P) :
    (entries : List (String × Value σ)) → ∀ value ∈ entries.map Prod.snd, P value
  | [] => List.forall_mem_nil P
  | (_, value) :: entries => List.forall_mem_cons.mpr ⟨cases.all value, cases.allEntries entries⟩

theorem allReply (cases : Cases P) :
    (reply : Reply σ) → ∀ after result, reply = .value after result → P result
  | .value _ given => by
    rintro after result ⟨⟩
    exact cases.all given
  | .failure .. => nofun

theorem allPull (cases : Cases P) (pull : Pull σ) :
    ∀ items after, pull.members = .ok items after → ∀ item ∈ items, P item := by
  intro items after handed
  cases pull with
  | done =>
    cases handed
    exact List.forall_mem_nil P
  | failure => cases handed
  | member _ first next =>
    rw [Pull.members] at handed
    split at handed
    · next others _ rest =>
      cases handed
      exact List.forall_mem_cons.mpr ⟨cases.all first, cases.allPull (next _) others _ rest⟩
    · cases handed

end

end Cases

/-! ## Steps of an evaluation -/

section Steps

variable {α β : Type} {step : HostM σ α} {host after : σ}

theorem bind_of_done {result : α} (done : step host = .ok result after) (next : α → HostM σ β) :
    (step >>= next) host = next result after := by
  show EStateM.bind step next host = next result after
  rw [EStateM.bind, done]

theorem bind_of_failed {error : Error} (failed : step host = .error error after)
    (next : α → HostM σ β) : (step >>= next) host = .error error after := by
  show EStateM.bind step next host = .error error after
  rw [EStateM.bind, failed]

end Steps

/-- The names do not matter while the values of some entries are evaluated. -/
theorem evaluateEntries_eq (entries : List (String × Value σ)) :
    evaluateEntries entries = do
      return (entries.map Prod.fst).zip (← evaluateItems (entries.map Prod.snd)) := by
  induction entries with
  | nil => rfl
  | cons entry entries ih =>
    obtain ⟨name, value⟩ := entry
    rw [evaluateEntries, ih]
    simp [evaluateItems]

end Value

/-- All members of a collection are handed out, and then evaluated in order. -/
theorem Pull.evaluations_eq : (pull : Pull σ) → pull.evaluations =
    match pull.members with
    | .ok items after => .ok (Value.evaluateItems items) after
    | .error error after => .error error.passedOn after
  | .done _ | .failure .. => rfl
  | .member _ item next => by
    rw [evaluations, evaluations_eq (next _), members]
    cases (next _).members <;> rfl

/-- A pure collection leaves the host as it is, and hands out pure data. -/
theorem Pull.IsPure.of_members : {pull : Pull σ} → {host : σ} → pull.IsPure host →
    (∀ items after, pull.members = .ok items after → after = host ∧ ∀ item ∈ items, item.IsPure) ∧
      ∀ error after, pull.members = .error error after → after = host
  | .done _, _, .done => by
    refine ⟨?_, nofun⟩
    rintro items after ⟨⟩
    exact ⟨rfl, List.forall_mem_nil _⟩
  | .failure .., _, .failure _ => by
    refine ⟨nofun, ?_⟩
    rintro error after ⟨⟩
    rfl
  | .member _ item next, host, .member first rest => by
    obtain ⟨done, failed⟩ := of_members (rest host)
    rw [members]
    cases given : (next host).members with
    | ok others after =>
      obtain ⟨rfl, pure⟩ := done others after given
      refine ⟨?_, nofun⟩
      rintro items after ⟨⟩
      exact ⟨rfl, List.forall_mem_cons.mpr ⟨first, pure⟩⟩
    | error error after =>
      obtain rfl := failed error after given
      refine ⟨nofun, ?_⟩
      rintro error after ⟨⟩
      rfl

namespace Value

theorem evaluate_computed (id : Nat) (call : σ → Reply σ) (host : σ) :
    (computed id call).evaluate host = (call host).evaluate := by
  rw [evaluate]

section Collections

variable {id : Nat} {kind : CollectionKind} {pull : σ → Pull σ} {host after : σ}

theorem evaluate_collection_of_ok {items : List (Value σ)}
    (handed : (pull host).members = .ok items after) :
    (collection id kind pull).evaluate host =
      (do return .list (← evaluateItems items) : HostM σ (Value σ)) after := by
  have evaluations : (pull host).evaluations = .ok (evaluateItems items) after := by
    rw [Pull.evaluations_eq, handed]
  simp only [evaluate, evaluations]

theorem evaluate_collection_of_error {error : Error}
    (failed : (pull host).members = .error error after) :
    (collection id kind pull).evaluate host = .error error.passedOn after := by
  have evaluations : (pull host).evaluations = .error error.passedOn after := by
    rw [Pull.evaluations_eq, failed]
  simp only [evaluate, evaluations]

end Collections

/-! ## Evaluations -/

/-- What evaluating some data comes to. It has a normal form or a first failure, and whichever it
has is what the evaluation gives, in the state of the host where it began. -/
structure Evaluation (host : σ) (value : Value σ) : Prop where
  done {result : Value σ} (normal : NormalForm host value result) :
    value.evaluate host = .ok result host
  failed {error : Error} (fails : FailsWith host error value) :
    value.evaluate host = .error error.passedOn host
  total : (∃ result, NormalForm host value result) ∨ ∃ error, FailsWith host error value

namespace Evaluation

variable {host : σ} {items results before after : List (Value σ)} {item : Value σ}

theorem done_items (each : ∀ item ∈ items, Evaluation host item)
    (normal : List.Forall₂ (NormalForm host) items results) :
    evaluateItems items host = .ok results host := by
  induction normal with
  | nil => rfl
  | cons first rest ih =>
    obtain ⟨now, later⟩ := List.forall_mem_cons.mp each
    rw [evaluateItems, bind_of_done (now.done first), bind_of_done (ih later)]
    rfl

theorem failed_items {error : Error}
    (each : ∀ other ∈ before ++ item :: after, Evaluation host other)
    (earlier : List.Forall₂ (NormalForm host) before results)
    (fails : FailsWith host error item) :
    evaluateItems (before ++ item :: after) host = .error error.passedOn host := by
  induction earlier with
  | nil =>
    have now := (each item List.mem_cons_self).failed fails
    rw [List.nil_append, evaluateItems, bind_of_failed now]
  | cons first rest ih =>
    obtain ⟨now, later⟩ := List.forall_mem_cons.mp each
    rw [List.cons_append, evaluateItems, bind_of_done (now.done first), bind_of_failed (ih later)]

/-- Either all of some data has a normal form, or there is a first item that fails. -/
theorem total_items (each : ∀ item ∈ items, Evaluation host item) :
    (∃ results, List.Forall₂ (NormalForm host) items results) ∨
      ∃ before item after results error, items = before ++ item :: after ∧
        List.Forall₂ (NormalForm host) before results ∧ FailsWith host error item := by
  induction items with
  | nil => exact .inl ⟨[], .nil⟩
  | cons first items ih =>
    obtain ⟨now, later⟩ := List.forall_mem_cons.mp each
    rcases now.total with ⟨result, normal⟩ | ⟨error, fails⟩
    · rcases ih later with
        ⟨results, others⟩ | ⟨before, item, after, results, error, rfl, earlier, fails⟩
      · exact .inl ⟨result :: results, .cons normal others⟩
      · exact .inr ⟨first :: before, item, after, result :: results, error, rfl,
          .cons normal earlier, fails⟩
    · exact .inr ⟨[], first, items, [], error, rfl, .nil, fails⟩

theorem list (each : ∀ item ∈ items, Evaluation host item) : Evaluation host (.list items) where
  done := by
    rintro _ ⟨⟩
    next normal =>
    rw [evaluate, bind_of_done (done_items each normal)]
    rfl
  failed := by
    rintro error ⟨⟩
    next earlier fails => rw [evaluate, bind_of_failed (failed_items each earlier fails)]
  total := by
    rcases total_items each with
      ⟨results, normal⟩ | ⟨before, item, after, results, error, rfl, earlier, fails⟩
    · exact .inl ⟨.list results, .list normal⟩
    · exact .inr ⟨error, .list earlier fails⟩

theorem map {entries : List (String × Value σ)}
    (each : ∀ value ∈ entries.map Prod.snd, Evaluation host value) :
    Evaluation host (.map entries) where
  done := by
    rintro _ ⟨⟩
    next results names normal =>
    have evaluated : evaluateEntries entries host = .ok results host := by
      rw [evaluateEntries_eq, bind_of_done (done_items each normal), ← names,
        ← List.zip_of_prod rfl rfl]
      rfl
    rw [evaluate, bind_of_done evaluated]
    rfl
  failed := by
    rintro error ⟨⟩
    next before after results name value earlier fails =>
    rw [List.map_append, List.map_cons] at each
    have stopped := failed_items each earlier fails
    rw [evaluate, evaluateEntries_eq, List.map_append (f := Prod.snd),
      List.map_cons (f := Prod.snd), bind_of_failed (bind_of_failed stopped _)]
  total := by
    rcases total_items each with
      ⟨results, normal⟩ | ⟨before, item, after, results, error, split, earlier, fails⟩
    · have size : (entries.map Prod.fst).length = results.length := by
        simpa using normal.length_eq
      refine .inl ⟨.map ((entries.map Prod.fst).zip results), .map ?_ ?_⟩
      · exact List.map_fst_zip (Nat.le_of_eq size)
      · rwa [List.map_snd_zip (Nat.le_of_eq size.symm)]
    · obtain ⟨front, back, rfl, rfl, later⟩ := List.map_eq_append_iff.mp split
      obtain ⟨⟨name, value⟩, back, rfl, rfl, rfl⟩ := List.map_eq_cons_iff.mp later
      exact .inr ⟨error, .map earlier fails⟩

theorem computed {id : Nat} {call : σ → Reply σ} (pure : (call host).IsPure host)
    (each : ∀ after given, call host = .value after given → Evaluation host given) :
    Evaluation host (.computed id call) := by
  generalize reply : call host = answer at pure
  cases pure with
  | @value _ given _ =>
    have told := each host given reply
    refine ⟨fun {result} normal => ?_, fun {error} fails => ?_, ?_⟩
    · cases normal with | computed called normal
      obtain ⟨rfl, rfl⟩ := Reply.value.inj (reply.symm.trans called)
      rw [evaluate_computed, reply]
      exact told.done normal
    · cases fails with
      | call failed => cases reply.symm.trans failed
      | computed called fails =>
        obtain ⟨rfl, rfl⟩ := Reply.value.inj (reply.symm.trans called)
        rw [evaluate_computed, reply]
        exact told.failed fails
    · exact told.total.imp (fun ⟨result, normal⟩ => ⟨result, .computed reply normal⟩)
        fun ⟨error, fails⟩ => ⟨error, .computed reply fails⟩
  | failure error =>
    refine ⟨fun {result} normal => ?_, fun {other} fails => ?_, .inr ⟨error, .call reply⟩⟩
    · cases normal with | computed called _
      cases reply.symm.trans called
    · cases fails with
      | call failed =>
        obtain ⟨rfl, rfl⟩ := Reply.failure.inj (reply.symm.trans failed)
        rw [evaluate_computed, reply]
        rfl
      | computed called _ => cases reply.symm.trans called

theorem collection {id : Nat} {kind : CollectionKind} {pull : σ → Pull σ}
    (pure : (pull host).IsPure host)
    (each : ∀ items after, (pull host).members = .ok items after →
      ∀ item ∈ items, Evaluation host item) :
    Evaluation host (.collection id kind pull) := by
  obtain ⟨of_ok, of_error⟩ := pure.of_members
  cases members : (pull host).members with
  | ok items after =>
    obtain ⟨rfl, _⟩ := of_ok items after members
    have told := each items after members
    refine ⟨fun {result} normal => ?_, fun {error} fails => ?_, ?_⟩
    · cases normal with | collection handed normal
      cases members.symm.trans handed
      rw [evaluate_collection_of_ok members, bind_of_done (done_items told normal)]
      rfl
    · cases fails with
      | pull failed => cases members.symm.trans failed
      | collection handed earlier fails =>
        cases members.symm.trans handed
        rw [evaluate_collection_of_ok members, bind_of_failed (failed_items told earlier fails)]
    · rcases total_items told with
        ⟨results, normal⟩ | ⟨before, item, after, results, error, rfl, earlier, fails⟩
      · exact .inl ⟨.list results, .collection members normal⟩
      · exact .inr ⟨error, .collection members earlier fails⟩
  | error error after =>
    obtain rfl := of_error error after members
    refine ⟨fun {result} normal => ?_, fun {other} fails => ?_, .inr ⟨error, .pull members⟩⟩
    · cases normal with | collection handed _
      cases members.symm.trans handed
    · cases fails with
      | pull failed =>
        cases members.symm.trans failed
        rw [evaluate_collection_of_error members]
      | collection handed _ _ => cases members.symm.trans handed

end Evaluation

/-- Pure data has a normal form or fails, and evaluating it tells which. -/
theorem evaluation_of_isPure {value : Value σ} (pure : value.IsPure) (host : σ) :
    Evaluation host value := by
  have cases : Cases fun value : Value σ => value.IsPure → Evaluation host value := {
    null := fun _ => ⟨by rintro _ ⟨⟩; rfl, nofun, .inl ⟨_, .null⟩⟩
    bool := fun value _ => ⟨by rintro _ ⟨⟩; rfl, nofun, .inl ⟨_, .bool value⟩⟩
    integer := fun value _ => ⟨by rintro _ ⟨⟩; rfl, nofun, .inl ⟨_, .integer value⟩⟩
    text := fun value _ => ⟨by rintro _ ⟨⟩; rfl, nofun, .inl ⟨_, .text value⟩⟩
    float := fun value _ => by
      refine ⟨fun {result} normal => ?_, nofun, ?_⟩
      · rw [evaluate]
        cases normal with
        | finite finite => rw [if_pos finite]; rfl
        | notFinite notFinite => rw [if_neg (by simp [notFinite])]; rfl
      · cases finite : value.isFinite with
        | true => exact .inl ⟨_, .finite finite⟩
        | false => exact .inl ⟨_, .notFinite finite⟩
    list := by
      rintro items each ⟨⟩
      next pure => exact .list fun item mem => each item mem (pure item mem)
    map := by
      rintro entries each ⟨⟩
      next pure =>
      refine .map fun value mem => each value mem ?_
      obtain ⟨entry, entry_mem, rfl⟩ := List.mem_map.mp mem
      exact pure entry entry_mem
    computed := by
      rintro id call given ⟨⟩
      next pure =>
      refine .computed (pure host) fun after result called => given host after result called ?_
      have replied := pure host
      rw [called] at replied
      cases replied
      assumption
    collection := by
      rintro id kind pull handed ⟨⟩
      next pure =>
      refine .collection (pure host) fun items after given item mem => ?_
      exact handed host items after given item mem
        (((pure host).of_members.1 items after given).2 item mem) }
  exact cases.all value pure

/-! ## Data in normal form -/

/-- What holds of the normal forms of some items holds of the normal forms of all of them. -/
theorem forall_mem_of_forall₂ {P : Value σ → Prop} {host : σ} {items results : List (Value σ)}
    (normal : List.Forall₂ (NormalForm host) items results)
    (each : ∀ item ∈ items, ∀ result, NormalForm host item result → P result) :
    ∀ result ∈ results, P result := by
  induction normal with
  | nil => exact List.forall_mem_nil P
  | cons first _ ih =>
    obtain ⟨now, later⟩ := List.forall_mem_cons.mp each
    exact List.forall_mem_cons.mpr ⟨now _ first, ih later⟩

/-- A normal form is plain data, and its numbers are finite. -/
theorem isNormal_normalForm {host : σ} {value result : Value σ}
    (normal : NormalForm host value result) : result.IsNormal := by
  have cases : Cases fun value : Value σ =>
      ∀ result, NormalForm host value result → result.IsNormal := {
    null := by rintro _ ⟨⟩; exact .null
    bool := by rintro value _ ⟨⟩; exact .bool value
    integer := by rintro value _ ⟨⟩; exact .integer value
    text := by rintro value _ ⟨⟩; exact .text value
    float := by
      rintro value _ (_ | _)
      · exact .float ‹_›
      · exact .null
    list := by
      rintro items each _ ⟨⟩
      next normal => exact .list (forall_mem_of_forall₂ normal each)
    map := by
      rintro entries each _ ⟨⟩
      next normal =>
      exact .map fun entry mem => forall_mem_of_forall₂ normal each _ (List.mem_map_of_mem mem)
    computed := by
      rintro id call given _ ⟨⟩
      next called normal => exact given _ _ _ called _ normal
    collection := by
      intro id kind pull handed _ normal
      cases normal with | collection given normal
      exact .list (forall_mem_of_forall₂ normal (handed _ _ _ given)) }
  exact cases.all value result normal

theorem IsNormal.isPure {value : Value σ} (normal : value.IsNormal) : value.IsPure := by
  induction normal with
  | null => exact .null
  | bool value => exact .bool value
  | integer value => exact .integer value
  | float => exact .float _
  | text value => exact .text value
  | list _ ih => exact .list ih
  | map _ ih => exact .map ih

/-- Data in normal form is its own normal form, in every state of the host. -/
theorem IsNormal.normalForm {value : Value σ} (normal : value.IsNormal) (host : σ) :
    NormalForm host value value := by
  induction normal with
  | null => exact .null
  | bool value => exact .bool value
  | integer value => exact .integer value
  | float finite => exact .finite finite
  | text value => exact .text value
  | list _ ih => exact .list (List.forall₂_same.mpr ih)
  | map _ ih =>
    refine .map rfl (List.forall₂_same.mpr fun value mem => ?_)
    obtain ⟨entry, entry_mem, rfl⟩ := List.mem_map.mp mem
    exact ih entry entry_mem

/-- Evaluating data in normal form gives the data itself. -/
theorem IsNormal.evaluate {value : Value σ} (normal : value.IsNormal) (host : σ) :
    value.evaluate host = .ok value host :=
  (evaluation_of_isPure normal.isPure host).done (normal.normalForm host)

end Value

end Stencil
