import Stencil.Engine
import Stencil.Proofs.Block.Tree
import Stencil.Proofs.Json.RoundTrip

/-!
# Saved templates are read back

What the saved form keeps of a template, and what it takes to read it again.

1. `Json.fields?_record`: the fields of a record are found under their names.
2. `Block.ofJson?_toJson`: a block is read back from its saved form, if the levels that it needs
   are allowed and its spans are numbers of 64 bits.
3. `Block.portable_of_ofJson?`: every block that can be read at all is of that kind, with the
   levels that reading it was allowed.
4. `Program.tableOfJson?_tableToJson`: templates saved together are read back in order.
-/

namespace Stencil

/-! ## Records -/

namespace Json

/-- A field is found among any others, if its name is there once. -/
theorem field?_of_single {before after : List (String × Json)} {name : String} (value : Json)
    (single : name ∉ (before ++ after).map Prod.fst) :
    field? ((before ++ (name, value) :: after).map fun (name, value) => (some name, value)) name =
      some value := by
  have others : ∀ fields : List (String × Json), name ∉ fields.map Prod.fst →
      (fields.map fun (name, value) => ((some name, value) : Option String × Json)).filter
        (fun field => field.1 == some name) = [] := by
    intro fields absent
    rw [List.filter_eq_nil_iff]
    intro field inside found
    obtain ⟨other, mem, rfl⟩ := List.mem_map.mp inside
    rw [beq_iff_eq, Option.some.injEq] at found
    exact absent (List.mem_map.mpr ⟨other, mem, found⟩)
  rw [List.map_append, List.mem_append, not_or] at single
  rw [field?, List.map_append, List.map_cons, List.filter_append, others before single.1,
    List.nil_append, List.filter_cons_of_pos (by simp), others after single.2]

theorem field?_map {fields : List (String × Json)} (distinct : (fields.map Prod.fst).Nodup)
    {name : String} {value : Json} (mem : (name, value) ∈ fields) :
    field? (fields.map fun (name, value) => (some name, value)) name = some value := by
  obtain ⟨before, after, rfl⟩ := List.append_of_mem mem
  rw [List.map_append, List.map_cons, List.perm_middle.nodup_iff, List.nodup_cons,
    ← List.map_append] at distinct
  exact field?_of_single value distinct.1

/-- Every field of a record has a text as its name, so the fields are looked up one by one. -/
theorem fields?_record_eq (fields : List (String × Json)) (names : List String) :
    (record fields).fields? names =
      names.mapM (field? (fields.map fun (name, value) => (some name, value))) := by
  rw [record, fields?, if_pos]
  simp

/-- Fields of a record with different names are found under their names. -/
theorem fields?_record (fields : List (String × Json)) (distinct : (fields.map Prod.fst).Nodup)
    {chosen : List (String × Json)} (subset : ∀ field ∈ chosen, field ∈ fields) :
    (record fields).fields? (chosen.map Prod.fst) = some (chosen.map Prod.snd) := by
  rw [fields?_record_eq]
  induction chosen with
  | nil => rfl
  | cons field chosen ih =>
    rw [List.map_cons, List.mapM_cons,
      field?_map distinct (subset field List.mem_cons_self), ih fun other mem =>
        subset other (List.mem_cons_of_mem _ mem)]
    rfl

end Json

theorem Json.whole_record (fields : List (String × Json)) :
    (Json.record fields).whole = fields.all fun field => field.2.whole := by
  rw [record, whole]
  induction fields with
  | nil => rfl
  | cons field fields ih => rw [List.map_cons, wholeFields, ih, List.all_cons]

theorem Json.whole_nat (n : Nat) : (Json.nat n).whole = true := by
  simp [nat, whole, Numeral.ofNat]

/-! ## Blocks -/

/-- Both ends of a span are numbers of 64 bits. -/
def Span.Bounded (span : Span) : Prop :=
  span.start < UInt64.size ∧ span.stop < UInt64.size

theorem Span.ofJson?_toJson {span : Span} (bounded : span.Bounded) :
    Span.ofJson? span.toJson = some span := by
  have found := Json.fields?_record [("m", .nat span.start), ("n", .nat span.stop)]
    (by simp) (fun _ mem => mem)
  have start : (Json.nat span.start).nat? UInt64.size = some span.start := by
    simp [Json.nat, Json.nat?, bounded.1]
  have stop : (Json.nat span.stop).nat? UInt64.size = some span.stop := by
    simp [Json.nat, Json.nat?, bounded.2]
  rw [toJson, ofJson?]
  simp only [List.map_cons, List.map_nil] at found
  simp only [found, start, stop, bind, Option.bind]

theorem Json.record_singleton (name : String) (value : Json) :
    Json.record [(name, value)] = .object [(some name, value)] := rfl

mutual

/-- A block is read back, where the levels that it needs are allowed. -/
theorem Block.ofJson?_toJson : (block : Block) → ∀ {depth : Nat}, block.levels ≤ depth →
    (∀ span ∈ block.spans, span.Bounded) → Block.ofJson? depth block.toJson = some block
  | .text content span, depth + 3, _, bounded => by
    have found := Json.fields?_record [("text", .text content), ("span", span.toJson)]
      (by simp) (fun _ mem => mem)
    have read := Span.ofJson?_toJson (bounded span (by simp [spans]))
    simp only [List.map_cons, List.map_nil] at found
    rw [toJson, Json.record_singleton, ofJson?, found]
    simp only [read, bind, Option.bind, Json.text, Json.text?]
  | .placeholder p, depth + 3, _, bounded => by
    have found := Json.fields?_record [("name", .text p.name),
      ("recursive", .bool p.recursive), ("escape", .bool p.escape), ("span", p.span.toJson)]
      (by simp) (fun _ mem => mem)
    have read := Span.ofJson?_toJson (bounded p.span (by simp [spans]))
    simp only [List.map_cons, List.map_nil] at found
    rw [toJson, Json.record_singleton, ofJson?, Placeholder.toJson, found]
    simp only [read, bind, Option.bind, Json.text, Json.text?, Json.bool?]
  | .condition name recursive yes no span, depth + 3, enough, bounded => by
    have found := Json.fields?_record [("name", .text name),
      ("recursive", .bool recursive), ("then_branch", .array (listToJson yes)),
      ("else_branch", .array (listToJson no)), ("span", span.toJson)]
      (by simp) (fun _ mem => mem)
    have read := Span.ofJson?_toJson (bounded span (by simp [spans]))
    simp only [List.map_cons, List.map_nil] at found
    simp only [levels, Nat.add_le_add_iff_right, Nat.max_le] at enough
    have yes_read := Block.mapM_ofJson?_listToJson yes enough.1
      (fun span mem => bounded span (by simp [spans, mem]))
    have no_read := Block.mapM_ofJson?_listToJson no enough.2
      (fun span mem => bounded span (by simp [spans, mem]))
    rw [toJson, Json.record_singleton, ofJson?, found]
    simp only [read, yes_read, no_read, bind, Option.bind, Json.text, Json.text?, Json.bool?]
  | .iteration name body span, depth + 3, enough, bounded => by
    have found := Json.fields?_record [("name", .text name),
      ("body", .array (listToJson body)), ("span", span.toJson)]
      (by simp) (fun _ mem => mem)
    have read := Span.ofJson?_toJson (bounded span (by simp [spans]))
    simp only [List.map_cons, List.map_nil] at found
    simp only [levels, Nat.add_le_add_iff_right] at enough
    have body_read := Block.mapM_ofJson?_listToJson body enough
      (fun span mem => bounded span (by simp [spans, mem]))
    rw [toJson, Json.record_singleton, ofJson?, found]
    simp only [read, body_read, bind, Option.bind, Json.text, Json.text?]
  | .text .., 0, enough, _ | .text .., 1, enough, _ | .text .., 2, enough, _
  | .placeholder _, 0, enough, _ | .placeholder _, 1, enough, _ | .placeholder _, 2, enough, _
  | .condition .., 0, enough, _ | .condition .., 1, enough, _ | .condition .., 2, enough, _
  | .iteration .., 0, enough, _ | .iteration .., 1, enough, _ | .iteration .., 2, enough, _ => by
    simp [levels] at enough

/-- The blocks of a list are read back in order. -/
theorem Block.mapM_ofJson?_listToJson : (blocks : List Block) → ∀ {depth : Nat},
    levelsList blocks ≤ depth → (∀ span ∈ spansList blocks, span.Bounded) →
      (listToJson blocks).mapM (ofJson? depth) = some blocks
  | [], _, _, _ => rfl
  | block :: blocks, depth, enough, bounded => by
    rw [levelsList, Nat.max_le] at enough
    have first := Block.ofJson?_toJson block enough.1
      (fun span mem => bounded span (by simp [spansList, mem]))
    have others := Block.mapM_ofJson?_listToJson blocks enough.2
      (fun span mem => bounded span (by simp [spansList, mem]))
    rw [listToJson, List.mapM_cons, first, others]
    rfl

end

mutual

/-- The numbers of a saved block are the ends of its spans. -/
theorem Block.whole_toJson : (block : Block) → block.toJson.whole = true
  | .text _ _ | .placeholder _ => by
    simp [toJson, Placeholder.toJson, Span.toJson, Json.whole_record, Json.whole_nat, Json.text,
      Json.whole]
  | .condition _ _ yes no _ => by
    simp [toJson, Span.toJson, Json.whole_record, Json.whole_nat, Json.text, Json.whole,
      Block.whole_listToJson yes, Block.whole_listToJson no]
  | .iteration _ body _ => by
    simp [toJson, Span.toJson, Json.whole_record, Json.whole_nat, Json.text, Json.whole,
      Block.whole_listToJson body]

theorem Block.whole_listToJson : (blocks : List Block) →
    Json.wholeItems (listToJson blocks) = true
  | [] => rfl
  | block :: blocks => by
    rw [listToJson, Json.wholeItems, Block.whole_toJson block, Block.whole_listToJson blocks]
    rfl

end

/-! ## What can be read -/

theorem mem_of_mapM_eq_some {α β : Type} {f : α → Option β} {xs : List α} {ys : List β}
    (h : xs.mapM f = some ys) {y : β} (mem : y ∈ ys) : ∃ x, f x = some y := by
  induction xs generalizing ys with
  | nil =>
    cases h
    cases mem
  | cons x xs ih =>
    rw [List.mapM_cons] at h
    obtain ⟨first, read, h⟩ := Option.bind_eq_some_iff.mp h
    obtain ⟨others, rest, h⟩ := Option.bind_eq_some_iff.mp h
    cases h
    rcases List.mem_cons.mp mem with rfl | mem
    · exact ⟨x, read⟩
    · exact ih rest mem

theorem mapM_append_eq_some {α β : Type} {f : α → Option β} {xs xs' : List α} {ys ys' : List β}
    (h : xs.mapM f = some ys) (h' : xs'.mapM f = some ys') :
    (xs ++ xs').mapM f = some (ys ++ ys') := by
  rw [List.mapM_append, h, h']
  rfl

theorem Json.nat?_lt {doc : Json} {bound n : Nat} (h : doc.nat? bound = some n) : n < bound := by
  unfold nat? at h
  split at h
  · simpa using (Option.filter_eq_some_iff.mp h).2
  · cases h

theorem Span.bounded_of_ofJson? {doc : Json} {span : Span} (h : ofJson? doc = some span) :
    span.Bounded := by
  unfold ofJson? at h
  obtain ⟨values, _, h⟩ := Option.bind_eq_some_iff.mp h
  split at h
  · obtain ⟨start, start_read, h⟩ := Option.bind_eq_some_iff.mp h
    obtain ⟨stop, stop_read, h⟩ := Option.bind_eq_some_iff.mp h
    cases h
    exact ⟨Json.nat?_lt start_read, Json.nat?_lt stop_read⟩
  · cases h

/-- Blocks that can be saved and read back where so many levels are allowed. -/
structure Block.Portable (depth : Nat) (blocks : List Block) : Prop where
  levels : Block.levelsList blocks ≤ depth
  bounded : ∀ span ∈ Block.spansList blocks, span.Bounded

theorem Block.portable_iff {depth : Nat} {blocks : List Block} :
    Portable depth blocks ↔ ∀ block ∈ blocks, Portable depth [block] := by
  constructor
  · rintro ⟨levels, bounded⟩ block mem
    rw [levelsList_le_iff] at levels
    refine ⟨by simp [levelsList, levels block mem], fun span inside => ?_⟩
    rw [spansList, spansList, List.append_nil] at inside
    exact bounded span (mem_spansList.mpr ⟨block, mem, inside⟩)
  · intro each
    refine ⟨levelsList_le_iff.mpr fun block mem => ?_, fun span inside => ?_⟩
    · simpa [levelsList] using (each block mem).levels
    · obtain ⟨block, mem, inside⟩ := mem_spansList.mp inside
      exact (each block mem).bounded span (by simpa [spansList] using inside)

/-- What is known of a block that was read: where its span was read, and where the blocks in it. -/
theorem Block.exists_of_ofJson? {depth : Nat} {doc : Json} {block : Block}
    (h : ofJson? depth doc = some block) :
    ∃ less spanDoc, ∃ docs : List Json, depth = less + 3 ∧
      Span.ofJson? spanDoc = some block.span ∧ docs.mapM (ofJson? less) = some block.children := by
  unfold ofJson? at h
  split at h
  · next less kind body =>
    split at h
    · obtain ⟨values, _, h⟩ := Option.bind_eq_some_iff.mp h
      split at h
      · obtain ⟨content, _, h⟩ := Option.bind_eq_some_iff.mp h
        obtain ⟨span, span_read, h⟩ := Option.bind_eq_some_iff.mp h
        cases h
        exact ⟨less, _, [], rfl, span_read, rfl⟩
      · cases h
    · obtain ⟨values, _, h⟩ := Option.bind_eq_some_iff.mp h
      split at h
      · obtain ⟨name, _, h⟩ := Option.bind_eq_some_iff.mp h
        obtain ⟨recursive, _, h⟩ := Option.bind_eq_some_iff.mp h
        obtain ⟨escape, _, h⟩ := Option.bind_eq_some_iff.mp h
        obtain ⟨span, span_read, h⟩ := Option.bind_eq_some_iff.mp h
        cases h
        exact ⟨less, _, [], rfl, span_read, rfl⟩
      · cases h
    · obtain ⟨values, _, h⟩ := Option.bind_eq_some_iff.mp h
      split at h
      · split at h
        · split at h
          · obtain ⟨name, _, h⟩ := Option.bind_eq_some_iff.mp h
            obtain ⟨recursive, _, h⟩ := Option.bind_eq_some_iff.mp h
            obtain ⟨yes, yes_read, h⟩ := Option.bind_eq_some_iff.mp h
            obtain ⟨no, no_read, h⟩ := Option.bind_eq_some_iff.mp h
            obtain ⟨span, span_read, h⟩ := Option.bind_eq_some_iff.mp h
            cases h
            exact ⟨less, _, _, rfl, span_read, mapM_append_eq_some yes_read no_read⟩
          · cases h
        · cases h
      · cases h
    · obtain ⟨values, _, h⟩ := Option.bind_eq_some_iff.mp h
      split at h
      · split at h
        · obtain ⟨name, _, h⟩ := Option.bind_eq_some_iff.mp h
          obtain ⟨body, body_read, h⟩ := Option.bind_eq_some_iff.mp h
          obtain ⟨span, span_read, h⟩ := Option.bind_eq_some_iff.mp h
          cases h
          exact ⟨less, _, _, rfl, span_read, body_read⟩
        · cases h
      · cases h
    · cases h
  · cases h

/-- Every block that can be read is read from no more levels than allowed, and its spans are
numbers of 64 bits. -/
theorem Block.portable_of_ofJson? {depth : Nat} {doc : Json} {block : Block}
    (h : ofJson? depth doc = some block) : Portable depth [block] := by
  induction depth using Nat.strongRecOn generalizing doc block with
  | ind depth ih =>
    obtain ⟨less, spanDoc, docs, rfl, span_read, read⟩ := exists_of_ofJson? h
    have inside : Portable less block.children := by
      refine portable_iff.mpr fun child mem => ?_
      obtain ⟨doc, read⟩ := mem_of_mapM_eq_some read mem
      exact ih less (by omega) read
    refine ⟨?_, fun span mem => ?_⟩
    · have := inside.levels
      simp only [levelsList, levels_eq]
      omega
    · simp only [spansList, List.append_nil, spans_eq block, List.mem_cons] at mem
      rcases mem with rfl | mem
      · exact Span.bounded_of_ofJson? span_read
      · exact inside.bounded span mem

/-! ## Templates -/

namespace Program

theorem ofJson?_fields {program : Program} {depth : Nat}
    (portable : Block.Portable depth program.blocks) :
    ofJson? (depth + 2) (.record program.fields) = some program := by
  have found := Json.fields?_record program.fields (by simp [fields])
    (fun _ mem => mem)
  have read := Block.mapM_ofJson?_listToJson program.blocks portable.levels portable.bounded
  simp only [fields, List.map_cons, List.map_nil] at found
  rw [fields, ofJson?, found]
  simp only [read, bind, Option.bind, Json.text, Json.text?]

theorem portable_of_ofJson? {depth : Nat} {doc : Json} {program : Program}
    (h : ofJson? (depth + 2) doc = some program) : Block.Portable depth program.blocks := by
  rw [ofJson?] at h
  obtain ⟨values, _, h⟩ := Option.bind_eq_some_iff.mp h
  split at h
  · split at h
    · obtain ⟨source, _, h⟩ := Option.bind_eq_some_iff.mp h
      obtain ⟨blocks, read, h⟩ := Option.bind_eq_some_iff.mp h
      cases h
      refine Block.portable_iff.mpr fun block mem => ?_
      obtain ⟨doc, read⟩ := mem_of_mapM_eq_some read mem
      exact Block.portable_of_ofJson? read
    · cases h
  · cases h

theorem portable_of_tableOfJson? {depth : Nat} {doc : Json} {entries : List (String × Program)}
    (h : tableOfJson? (depth + 4) doc = some entries) :
    ∀ entry ∈ entries, Block.Portable depth entry.2.blocks := by
  intro entry mem
  rw [tableOfJson?] at h
  obtain ⟨values, _, h⟩ := Option.bind_eq_some_iff.mp h
  split at h
  · split at h
    · obtain ⟨field, read⟩ := mem_of_mapM_eq_some h mem
      obtain ⟨name, _, read⟩ := Option.bind_eq_some_iff.mp read
      obtain ⟨program, program_read, read⟩ := Option.bind_eq_some_iff.mp read
      cases read
      exact portable_of_ofJson? program_read
    · cases h
  · cases h

theorem mapM_entries {depth : Nat} {entries : List (String × Program)}
    (portable : ∀ entry ∈ entries, Block.Portable depth entry.2.blocks) :
    (entries.map fun entry => ((some entry.1, .record entry.2.fields) : Option String × Json)).mapM
      (fun (name, program) => do some (← name, ← ofJson? (depth + 2) program)) = some entries := by
  induction entries with
  | nil => rfl
  | cons entry entries ih =>
    have first := ofJson?_fields (portable entry List.mem_cons_self)
    have others := ih fun other mem => portable other (List.mem_cons_of_mem _ mem)
    rw [List.map_cons, List.mapM_cons, others]
    simp only [first, bind, Option.bind, pure]

def tableFields (entries : List (String × Program)) : List (String × Json) :=
  [("version", .nat savedVersion),
    ("templates", .record (entries.map fun (name, program) => (name, .record program.fields)))]

/-- Templates saved together are read back in order. -/
theorem tableOfJson?_tableToJson {depth : Nat} {entries : List (String × Program)}
    (portable : ∀ entry ∈ entries, Block.Portable depth entry.2.blocks) :
    tableOfJson? (depth + 4) (tableToJson entries) = some entries := by
  have found := Json.fields?_record (tableFields entries) (by simp [tableFields])
    fun _ mem => List.mem_of_mem_tail mem
  have read := mapM_entries portable
  simp only [tableFields, List.tail_cons, List.map_cons, List.map_nil] at found
  rw [tableToJson, tableOfJson?, found]
  simp only [bind, Option.bind, Json.record, List.map_map]
  exact read

theorem whole_tableToJson (entries : List (String × Program)) :
    (tableToJson entries).whole = true := by
  simp [tableToJson, fields, Json.whole_record, Json.whole_nat, Json.text, Json.whole,
    Block.whole_listToJson]

theorem version?_tableToJson (entries : List (String × Program)) :
    version? (tableToJson entries) = some savedVersion := by
  have found := Json.fields?_record (tableFields entries) (by simp [tableFields])
    fun field (mem : field ∈ (tableFields entries).take 1) => List.mem_of_mem_take mem
  simp only [tableFields, List.take_succ_cons, List.take_zero, List.map_cons, List.map_nil] at found
  rw [tableToJson, version?, found]
  rfl

end Program

end Stencil
