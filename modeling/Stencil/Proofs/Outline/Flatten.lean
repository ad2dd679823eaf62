import Stencil.Proofs.Outline.Compiled
import Stencil.Proofs.Outline.Unlimited

/-!
# Flat outlines

The outline that a reader with a limit on nesting should have where a reader without one has a
draft: the outermost directives are open in both, and what the others hold is text in the innermost
one of these.

1. `Draft.outlineOf`: that outline.
2. `Draft.outlineOf_add`, `Draft.outlineOf_close`, `Draft.outlineOf_close_flat`: what becomes of it
   where the draft changes.
3. `Draft.closed_outlineOf`: closed, it is the flattened tree.
-/

namespace Stencil

namespace Outline

/-! ## Adding blocks -/

theorem overflow_add (outline : Outline) (block : Block) :
    (outline.add block).overflow = outline.overflow := by
  unfold add
  split <;> rfl

def addAll (outline : Outline) (blocks : List Block) : Outline :=
  blocks.foldl add outline

theorem addAll_append (outline : Outline) (blocks more : List Block) :
    outline.addAll (blocks ++ more) = (outline.addAll blocks).addAll more :=
  List.foldl_append

theorem addAll_top {outline : Outline} (none_open : outline.frames = []) (blocks : List Block) :
    outline.addAll blocks = { outline with top := blocks.reverse ++ outline.top } := by
  induction blocks generalizing outline with
  | nil => rfl
  | cons block blocks ih =>
    have added : outline.add block = { outline with top := block :: outline.top } := by
      rw [add, none_open]
    have others : { outline with top := block :: outline.top }.addAll blocks =
        { outline with top := blocks.reverse ++ block :: outline.top } := ih none_open
    rw [addAll, List.foldl_cons, ← addAll, added, others, List.reverse_cons, List.append_assoc,
      List.singleton_append]

theorem addAll_frame {outline : Outline} {frame : Frame} {frames : List Frame}
    (opened : outline.frames = frame :: frames) (blocks : List Block) :
    outline.addAll blocks = { outline with frames := frame.extend blocks.reverse :: frames } := by
  induction blocks generalizing outline frame with
  | nil =>
    show outline = { outline with frames := frame :: frames }
    rw [← opened]
  | cons block blocks ih =>
    have added : outline.add block =
        { outline with frames := frame.extend [block] :: frames } := by
      rw [add, opened]
    rw [addAll, List.foldl_cons, ← addAll, added, ih rfl]
    simp [Frame.extend]

theorem length_frames_addAll (outline : Outline) (blocks : List Block) :
    (outline.addAll blocks).frames.length = outline.frames.length := by
  cases opened : outline.frames with
  | nil => rw [addAll_top opened, opened]
  | cons frame frames => rw [addAll_frame opened, List.length_cons, List.length_cons]

theorem length_frames_add (outline : Outline) (block : Block) :
    (outline.add block).frames.length = outline.frames.length :=
  outline.length_frames_addAll [block]

/-! ## Outlines with the same blocks -/

/-- Two outlines hold the same blocks. -/
structure Alike (outline other : Outline) : Prop where
  top : outline.top = other.top
  frames : outline.frames = other.frames

theorem Alike.add {outline other : Outline} (alike : Alike outline other) (block : Block) :
    Alike (outline.add block) (other.add block) := by
  unfold Outline.add
  rw [alike.frames]
  split
  · exact ⟨by rw [alike.top], rfl⟩
  · exact ⟨alike.top, rfl⟩

theorem Alike.trans {outline middle other : Outline} (first : Alike outline middle)
    (second : Alike middle other) : Alike outline other :=
  ⟨first.top.trans second.top, first.frames.trans second.frames⟩

theorem Alike.closed {outline other : Outline} (alike : Alike outline other) :
    outline.closed = other.closed := by
  rw [Outline.closed, Outline.closed, alike.top, alike.frames]

theorem Alike.spans {outline other : Outline} (alike : Alike outline other) :
    outline.spans = other.spans := by
  rw [Outline.spans, Outline.spans, alike.top, alike.frames]

/-- The innermost directive is closed first. -/
theorem closed_eq {outline : Outline} {frame : Frame} {frames : List Frame}
    (opened : outline.frames = frame :: frames) :
    outline.closed = ({ outline with frames }.add frame.close).closed := by
  cases frames with
  | nil => simp [closed, add, opened, Frame.extend]
  | cons next frames => simp [closed, add, opened, Frame.extend]

end Outline

/-! ## Frames of nodes -/

namespace Node

theorem fill_single {nodes : List Node} (single : ∀ node ∈ nodes, node.isDivider = false)
    (frame : Frame) : fill frame nodes = frame.extend (nodes.flatMap blocks).reverse := by
  induction nodes generalizing frame with
  | nil => rfl
  | cons node nodes ih =>
    have undivided : frame.divide node = frame := by
      have := single node List.mem_cons_self
      cases node with
      | divider tag => cases this
      | _ => rfl
    rw [fill, undivided, ih fun other mem => single other (List.mem_cons_of_mem _ mem)]
    simp [Frame.extend]

theorem opening_fill (frame : Frame) (nodes : List Node) :
    (fill frame nodes).opening = frame.opening := by
  induction nodes generalizing frame with
  | nil => rfl
  | cons node nodes ih =>
    rw [fill, ih]
    cases node with
    | divider tag =>
      obtain ⟨opening, text, span, thenBranch, inner⟩ := frame
      cases opening <;> cases thenBranch <;> rfl
    | _ => rfl

theorem map_undivided {nodes : List Node} (single : ∀ node ∈ nodes, node.isDivider = false) :
    nodes.map undivided = nodes := by
  have same : nodes.map undivided = nodes.map id := by
    refine List.map_congr_left fun node mem => ?_
    have := single node mem
    cases node with
    | divider tag => cases this
    | _ => rfl
  rw [same, List.map_id]

end Node

namespace OpenNode

/-- The frame of a directive within the limit. -/
def frame (room : Nat) (node : OpenNode) : Frame :=
  Node.fill (.ofTag node.opening node.tag) (Node.flattenList room node.nodes.reverse)

/-- What stands for a directive past the limit. -/
def texts (node : OpenNode) : List Block :=
  node.tag.toBlock ::
    ((Node.flattenList 0 node.nodes.reverse).map Node.undivided).flatMap Node.blocks

end OpenNode

namespace Draft

/-- The outline of a draft where at most `limit` directives may be open. -/
def outlineOf (limit : Nat) (top : List Node) : List OpenNode → Outline
  | [] => ⟨((Node.flattenList limit top.reverse).flatMap Node.blocks).reverse, [], 0, []⟩
  | node :: outer =>
    let outline := outlineOf limit top outer
    if outer.length < limit then
      { outline with frames := node.frame (limit - (outer.length + 1)) :: outline.frames }
    else outline.addAll node.texts

theorem length_frames_outlineOf (limit : Nat) (top : List Node) (opened : List OpenNode) :
    (outlineOf limit top opened).frames.length = min opened.length limit := by
  induction opened with
  | nil => simp [outlineOf]
  | cons node outer ih =>
    rw [outlineOf]
    split
    · rw [List.length_cons, ih, List.length_cons]
      omega
    · rw [Outline.length_frames_addAll, ih, List.length_cons]
      omega

theorem outlineOf_opened {limit : Nat} (top : List Node) (node : OpenNode)
    {outer : List OpenNode} (room : outer.length < limit) :
    outlineOf limit top (node :: outer) =
      { outlineOf limit top outer with
        frames := node.frame (limit - (outer.length + 1)) ::
          (outlineOf limit top outer).frames } := by
  rw [outlineOf, if_pos room]

theorem outlineOf_flat {limit : Nat} (top : List Node) (node : OpenNode)
    {outer : List OpenNode} (full : limit ≤ outer.length) :
    outlineOf limit top (node :: outer) = (outlineOf limit top outer).addAll node.texts := by
  rw [outlineOf, if_neg (Nat.not_lt.mpr full)]

/-! ## Nodes -/

/-- A node in front of which and inside which nothing is divided adds its own blocks. -/
theorem outlineOf_add (limit : Nat) (draft : Draft) {node : Node}
    (single : node.isDivider = false) :
    outlineOf limit (draft.add node).top (draft.add node).opened =
      (outlineOf limit draft.top draft.opened).addAll
        ((Node.flatten (limit - draft.opened.length) node).flatMap Node.blocks) := by
  obtain ⟨top, opened⟩ := draft
  have singles : ∀ flat ∈ Node.flatten (limit - opened.length) node, flat.isDivider = false :=
    fun _ mem => Node.isDivider_of_mem_flatten single mem
  cases opened with
  | nil =>
    rw [outlineOf, Outline.addAll_top rfl]
    simp [add, outlineOf, Node.flattenList_append, Node.flattenList]
  | cons inner outer =>
    rw [List.length_cons] at singles ⊢
    simp only [add]
    rcases Nat.lt_or_ge outer.length limit with room | full
    · rw [outlineOf_opened top _ room, outlineOf_opened top _ room, Outline.addAll_frame rfl]
      simp only [OpenNode.frame, List.reverse_cons, Node.flattenList_append, Node.fill_append,
        Node.flattenList, List.append_nil, Node.fill_single singles]
    · have none_left : limit - (outer.length + 1) = 0 := by omega
      rw [none_left] at singles ⊢
      rw [outlineOf_flat top _ full, outlineOf_flat top _ full, ← Outline.addAll_append]
      simp only [OpenNode.texts, List.reverse_cons, Node.flattenList_append, Node.flattenList,
        List.append_nil, List.map_append, Node.map_undivided singles, List.flatMap_append,
        List.cons_append]

theorem outlineOf_add_leaf (limit : Nat) (draft : Draft) (block : Block) :
    outlineOf limit (draft.add (.leaf block)).top (draft.add (.leaf block)).opened =
      (outlineOf limit draft.top draft.opened).add block :=
  outlineOf_add limit draft rfl

/-- Past the limit an `else` is text. -/
theorem outlineOf_add_divider_flat {limit : Nat} (top : List Node) (node : OpenNode)
    {outer : List OpenNode} (full : limit ≤ outer.length) (tag : Tag) :
    outlineOf limit top ({ node with nodes := .divider tag :: node.nodes } :: outer) =
      (outlineOf limit top (node :: outer)).add tag.toBlock := by
  rw [outlineOf_flat top _ full, outlineOf_flat top _ full]
  have single : ∀ outline : Outline, outline.add tag.toBlock = outline.addAll [tag.toBlock] :=
    fun _ => rfl
  rw [single, ← Outline.addAll_append]
  simp [OpenNode.texts, Node.flattenList_append, Node.flattenList, Node.flatten, Node.undivided,
    Node.blocks]

/-- Within the limit an `else` divides the frame. -/
theorem outlineOf_add_divider {limit : Nat} (top : List Node) (node : OpenNode)
    {outer : List OpenNode} (room : outer.length < limit) (tag : Tag) :
    outlineOf limit top ({ node with nodes := .divider tag :: node.nodes } :: outer) =
      { outlineOf limit top outer with
        frames := (node.frame (limit - (outer.length + 1))).divide (.divider tag) ::
          (outlineOf limit top outer).frames } := by
  have whole : ∀ frame : Frame, frame.extend [] = frame := fun _ => rfl
  rw [outlineOf_opened top _ room]
  simp only [OpenNode.frame, List.reverse_cons, Node.flattenList_append, Node.fill_append,
    Node.flattenList, Node.flatten, List.append_nil, Node.fill, Node.blocks, List.reverse_nil,
    whole]

/-- Within the limit a directive that ends is a block of what is around it. -/
theorem outlineOf_close {limit : Nat} (top : List Node) (node : OpenNode)
    {outer : List OpenNode} (room : outer.length < limit) (ending : Option Tag) :
    outlineOf limit (close ⟨top, node :: outer⟩ ending).top
        (close ⟨top, node :: outer⟩ ending).opened =
      (outlineOf limit top outer).add (node.frame (limit - (outer.length + 1))).close := by
  have left : limit - outer.length = limit - (outer.length + 1) + 1 := by omega
  simp only [close]
  rw [outlineOf_add limit ⟨top, outer⟩ rfl]
  simp only [left, Node.flatten]
  rfl

/-- Past the limit a directive that ends adds its `end` as text. -/
theorem outlineOf_close_flat {limit : Nat} (top : List Node) (node : OpenNode)
    {outer : List OpenNode} (full : limit ≤ outer.length) (ending : Option Tag) :
    outlineOf limit (close ⟨top, node :: outer⟩ ending).top
        (close ⟨top, node :: outer⟩ ending).opened =
      (outlineOf limit top (node :: outer)).addAll (ending.toList.map Tag.toBlock) := by
  have none_left : limit - outer.length = 0 := by omega
  simp only [close]
  rw [outlineOf_add limit ⟨top, outer⟩ rfl, outlineOf_flat top _ full, ← Outline.addAll_append]
  simp only [none_left, Node.flatten, OpenNode.texts]
  cases ending with
  | none => simp [Node.blocks]
  | some tag => simp [Node.blocks]

/-- Closed, the outline of a draft is the flattened tree. -/
theorem closed_outlineOf (limit : Nat) (draft : Draft) :
    (outlineOf limit draft.top draft.opened).closed =
      (Node.flattenList limit draft.closed).flatMap Node.blocks := by
  induction count : draft.opened.length generalizing draft with
  | zero =>
    have none_open := List.eq_nil_of_length_eq_zero count
    simp [none_open, outlineOf, Outline.closed, closed]
  | succ count ih =>
    obtain ⟨top, opened⟩ := draft
    cases opened with
    | nil => cases count
    | cons node outer =>
      have shorter := ih (close ⟨top, node :: outer⟩ none) (by
        rw [length_opened_close, count, Nat.add_sub_cancel])
      rw [closed_eq (by simp), ← shorter]
      rcases Nat.lt_or_ge outer.length limit with room | full
      · rw [outlineOf_close top node room, outlineOf_opened top node room]
        exact Outline.closed_eq rfl
      · rw [outlineOf_close_flat top node full]
        rfl

end Draft

end Stencil
