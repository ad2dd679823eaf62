import Stencil.Name

/-!
# Names and their segments

Texts without points are the segments of what they are joined to.

1. `segmentsOf_ofSegments`: segments without points are taken apart as they were put together.
2. `Path.segmentsOf_item`: the path of the members of a value has two segments more than the path
   of what holds the value.
3. `Path.foldl_join`: segments that are joined one by one are the path that leads through them.
4. `Name.ofText_climb`: each group `../` in front of a name climbs once more.
-/

namespace Stencil

def PointFree (text : String) : Prop := '.' ∉ text.toList

instance : DecidablePred PointFree := fun text => inferInstanceAs (Decidable ('.' ∉ text.toList))

/-! ## Segments -/

theorem splitPoints_of_not_mem {text : List Char} (free : '.' ∉ text) :
    splitPoints text = [text] := by
  induction text with
  | nil => rfl
  | cons c text ih =>
    rw [List.mem_cons, not_or] at free
    rw [splitPoints, if_neg (Ne.symm free.1), ih free.2]

/-- The parts of two texts with a point between them are the parts of each. -/
theorem splitPoints_append (front text : List Char) :
    splitPoints (front ++ '.' :: text) = splitPoints front ++ splitPoints text := by
  induction front with
  | nil => simp [splitPoints]
  | cons c front ih =>
    rw [List.cons_append, splitPoints, splitPoints]
    split
    · rw [ih, List.cons_append]
    · rw [ih]
      cases parts : splitPoints front with
      | nil => exact absurd parts (splitPoints_ne_nil front)
      | cons part parts => rfl

theorem segmentsOf_append (front text : String) :
    segmentsOf (front ++ "." ++ text) = segmentsOf front ++ segmentsOf text := by
  have point : ".".toList = ['.'] := rfl
  simp only [segmentsOf, String.toList_append, point, List.append_assoc, List.singleton_append,
    splitPoints_append, List.map_append]

theorem segmentsOf_of_pointFree {text : String} (free : PointFree text) :
    segmentsOf text = [text] := by
  rw [segmentsOf, splitPoints_of_not_mem free]
  simp

/-- Segments without points are taken apart as they were put together. -/
theorem segmentsOf_ofSegments {segments : List String} (nonempty : segments ≠ [])
    (free : ∀ segment ∈ segments, PointFree segment) :
    segmentsOf (Path.ofSegments segments) = segments := by
  unfold Path.ofSegments
  induction segments with
  | nil => exact absurd rfl nonempty
  | cons segment segments ih =>
    have first := segmentsOf_of_pointFree (free segment List.mem_cons_self)
    cases segments with
    | nil => rw [String.intercalate_singleton, first]
    | cons next segments =>
      have others := ih (by simp) fun other mem => free other (List.mem_cons_of_mem _ mem)
      rw [String.intercalate_cons_cons, segmentsOf_append, first, others, List.singleton_append]

namespace Path

/-- The segments of a path. The root has none. -/
def segments (path : String) : List String :=
  if path = "" then [] else segmentsOf path

theorem ofSegments_concat {segments : List String} (nonempty : segments ≠ []) (rest : String) :
    ofSegments (segments ++ [rest]) = ofSegments segments ++ "." ++ rest := by
  rw [ofSegments, String.intercalate_append_of_ne_nil nonempty (List.cons_ne_nil rest []),
    String.intercalate_singleton]
  rfl

theorem foldl_join_of_ne {path : String} (nonempty : path ≠ "") (segments : List String) :
    segments.foldl join path = ofSegments (path :: segments) := by
  unfold ofSegments
  induction segments generalizing path with
  | nil => rw [List.foldl_nil, String.intercalate_singleton]
  | cons segment segments ih =>
    have longer : path ++ "." ++ segment ≠ "" := by simp
    rw [List.foldl_cons, join, if_neg nonempty, ih longer, String.intercalate_cons_append,
      String.intercalate_cons_cons]

/-- Segments that are not empty, joined one by one, are the path that leads through them. -/
theorem foldl_join {segments : List String} (solid : ∀ segment ∈ segments, segment ≠ "") :
    segments.foldl join "" = ofSegments segments := by
  cases segments with
  | nil => exact String.intercalate_nil.symm
  | cons segment segments =>
    rw [List.foldl_cons, join, if_pos rfl, foldl_join_of_ne (solid segment List.mem_cons_self)]

theorem item_ne_empty (path name : String) : item path name ≠ "" := by
  intro empty
  have := congrArg String.toList empty
  simp [item] at this

theorem segmentsOf_item {path name : String} (free : PointFree name) :
    segmentsOf (item path name) = segments path ++ [name, "[item]"] := by
  have last : segmentsOf "[item]" = ["[item]"] := segmentsOf_of_pointFree (by decide)
  have split : item path name = join path name ++ "." ++ "[item]" := by
    rw [item, String.append_assoc]
    rfl
  rw [split, segmentsOf_append, last]
  unfold join segments
  split
  · rw [segmentsOf_of_pointFree free]
    rfl
  · rw [segmentsOf_append, segmentsOf_of_pointFree free]
    simp

theorem segments_item {path name : String} (free : PointFree name) :
    segments (item path name) = segments path ++ [name, "[item]"] := by
  rw [segments, if_neg (item_ne_empty path name), segmentsOf_item free]

end Path

/-! ## Names -/

namespace Name

/-- Each group `../` in front of a name climbs once more. -/
theorem ofText_climb (text : String) :
    ofText ("../" ++ text) = ⟨(ofText text).climbs + 1, (ofText text).segments⟩ := by
  have group : "../".toList = ['.', '.', '/'] := rfl
  simp only [ofText, String.toList_append, group, List.cons_append, List.nil_append, cutClimbs]

/-- A name with some groups `../` in front. -/
def climb : Nat → String → String
  | 0, rest => rest
  | count + 1, rest => "../" ++ climb count rest

theorem ofText_climbs (count : Nat) (rest : String) :
    ofText (climb count rest) = ⟨(ofText rest).climbs + count, (ofText rest).segments⟩ := by
  induction count with
  | zero => rfl
  | succ count ih => rw [climb, ofText_climb, ih, Nat.add_assoc]

theorem segments_ofText_ne_nil (text : String) : (ofText text).segments ≠ [] := by
  simp [ofText, splitPoints_ne_nil]

theorem climbs_ofText (text : String) : (ofText text).climbs = (cutClimbs text.toList).1 := rfl

theorem cutClimbs_of_climbs_eq_zero {text : List Char} (stays : (cutClimbs text).1 = 0) :
    cutClimbs text = (0, text) := by
  unfold cutClimbs at stays ⊢
  split
  · next rest => cases stays
  · rfl

theorem ofText_of_climbs_eq_zero {text : String} (stays : (ofText text).climbs = 0) :
    ofText text = ⟨0, segmentsOf text⟩ := by
  rw [climbs_ofText] at stays
  rw [ofText, cutClimbs_of_climbs_eq_zero stays]
  rfl

/-- Only a name that begins with a group `../` climbs. -/
theorem climbs_eq_zero_of_not_prefix {text : String}
    (stays : ¬ ['.', '.', '/'] <+: text.toList) : (ofText text).climbs = 0 := by
  rw [climbs_ofText]
  unfold cutClimbs
  split
  · next rest same =>
    refine absurd ⟨rest, ?_⟩ stays
    rw [same]
    rfl
  · rfl

/-- A name that climbs begins with two points, so its first two segments are empty. -/
theorem climbs_eq_zero {text : String} (stays : ∀ rest, segmentsOf text ≠ "" :: "" :: rest) :
    (ofText text).climbs = 0 := by
  rw [climbs_ofText]
  unfold cutClimbs
  split
  · next rest same =>
    refine absurd ?_ (stays ((splitPoints ('/' :: rest)).map String.ofList))
    rw [segmentsOf, same]
    rfl
  · rfl

end Name

end Stencil
