import Stencil.Outline

/-!
# Reading without a limit

A template can be read by the same rules without any limit on nesting. What is read is a tree of
nodes, which keeps the `else` and `end` tags that belong to a directive.

1. `Draft.ofTokens`: the reading of tokens without a limit.
2. `Node.blocks`: the compiled form of a node.
3. `Node.flatten`: a tree in which the directives inside too many others are replaced by their
   tags, as text, and by what stands between these.
4. `Draft.flattenList_of_length_le`: where as many directives may be open as there are tokens,
   nothing is replaced.
-/

namespace Stencil

/-- A piece of a template that was read without a limit on nesting. -/
inductive Node where
  /-- Text, a placeholder, or a tag that has nothing to belong to. -/
  | leaf (block : Block)
  /-- An `else` that belongs to the condition around it. -/
  | divider (tag : Tag)
  /-- A directive with its opening tag, the nodes inside, and its `end` if there is one. -/
  | directive (opening : Opening) (tag : Tag) (inner : List Node) (ending : Option Tag)

def Tag.toBlock (tag : Tag) : Block := .text tag.text tag.span

/-- A frame behind a node, as far as the node divides it. -/
def Frame.divide (frame : Frame) : Node → Frame
  | .divider _ => frame.otherwise?.getD frame
  | .leaf _ | .directive .. => frame

namespace Node

/-! ## Compiled forms -/

mutual

def blocks : Node → List Block
  | .leaf block => [block]
  | .divider _ => []
  | .directive opening tag inner _ => [(fill (.ofTag opening tag) inner).close]

/-- A frame with some nodes at its end. -/
def fill : Frame → List Node → Frame
  | frame, [] => frame
  | frame, node :: nodes => fill ((frame.divide node).extend (blocks node).reverse) nodes

end

/-! ## Flat forms -/

/-- A node outside of the directive that it belongs to. -/
def undivided : Node → Node
  | .divider tag => .leaf tag.toBlock
  | node => node

mutual

/-- The nodes that stand for a node where `room` further directives may be open. -/
def flatten (room : Nat) : Node → List Node
  | .leaf block => [.leaf block]
  | .divider tag => [.divider tag]
  | .directive opening tag inner ending =>
    match room with
    | 0 => .leaf tag.toBlock :: ((flattenList 0 inner).map undivided ++
        ending.toList.map fun tag => .leaf tag.toBlock)
    | room + 1 => [.directive opening tag (flattenList room inner) ending]

def flattenList (room : Nat) : List Node → List Node
  | [] => []
  | node :: nodes => flatten room node ++ flattenList room nodes

end

theorem flattenList_append (room : Nat) (nodes more : List Node) :
    flattenList room (nodes ++ more) = flattenList room nodes ++ flattenList room more := by
  induction nodes with
  | nil => rfl
  | cons node nodes ih =>
    rw [List.cons_append, flattenList, flattenList, ih, List.append_assoc]

theorem fill_append (frame : Frame) (nodes more : List Node) :
    fill frame (nodes ++ more) = fill (fill frame nodes) more := by
  induction nodes generalizing frame with
  | nil => rfl
  | cons node nodes ih => rw [List.cons_append, fill, fill, ih]

def isDivider : Node → Bool
  | .divider _ => true
  | _ => false

theorem isDivider_of_mem_flatten {room : Nat} {node : Node} (single : node.isDivider = false)
    {flat : Node} (mem : flat ∈ flatten room node) : flat.isDivider = false := by
  cases node with
  | leaf block =>
    rw [flatten, List.mem_singleton] at mem
    rw [mem]
    rfl
  | divider tag => cases single
  | directive opening tag inner ending =>
    have undivided_single : ∀ node : Node, node.undivided.isDivider = false := by
      intro node
      cases node <;> rfl
    cases room with
    | zero =>
      simp only [flatten, List.mem_cons, List.mem_append, List.mem_map] at mem
      rcases mem with rfl | ⟨inside, _, rfl⟩ | ⟨tag, _, rfl⟩
      · rfl
      · exact undivided_single inside
      · rfl
    | succ room =>
      rw [flatten, List.mem_singleton] at mem
      rw [mem]
      rfl

/-! ## Heights -/

mutual

/-- The number of directives in a node that are inside each other. -/
def height : Node → Nat
  | .leaf _ | .divider _ => 0
  | .directive _ _ inner _ => heightList inner + 1

def heightList : List Node → Nat
  | [] => 0
  | node :: nodes => max (height node) (heightList nodes)

end

theorem heightList_append (nodes more : List Node) :
    heightList (nodes ++ more) = max (heightList nodes) (heightList more) := by
  induction nodes with
  | nil => simp [heightList]
  | cons node nodes ih => simp [heightList, ih, Nat.max_assoc]

theorem heightList_reverse (nodes : List Node) : heightList nodes.reverse = heightList nodes := by
  induction nodes with
  | nil => rfl
  | cons node nodes ih => simp [heightList_append, heightList, ih, Nat.max_comm]

mutual

/-- Where there is room for all directives, nothing is replaced. -/
theorem flatten_of_height_le : (node : Node) → ∀ {room : Nat}, node.height ≤ room →
    flatten room node = [node]
  | .leaf _, _, _ | .divider _, _, _ => rfl
  | .directive _ _ inner _, 0, low => by simp [height] at low
  | .directive opening tag inner ending, room + 1, low => by
    rw [height, Nat.add_le_add_iff_right] at low
    rw [flatten, flattenList_of_height_le inner low]

theorem flattenList_of_height_le : (nodes : List Node) → ∀ {room : Nat},
    heightList nodes ≤ room → flattenList room nodes = nodes
  | [], _, _ => rfl
  | node :: nodes, room, low => by
    rw [heightList, Nat.max_le] at low
    rw [flattenList, flatten_of_height_le node low.1, flattenList_of_height_le nodes low.2]
    rfl

end

end Node

/-! ## Drafts -/

/-- A directive that has been opened and not ended. The nodes inside are kept last first. -/
structure OpenNode where
  opening : Opening
  tag : Tag
  nodes : List Node

/-- A template read up to some token without a limit on nesting. Nodes are kept last first. -/
structure Draft where
  /-- The complete nodes outside all directives. -/
  top : List Node
  /-- The open directives, innermost first. -/
  opened : List OpenNode

namespace Draft

def empty : Draft := ⟨[], []⟩

def add (draft : Draft) (node : Node) : Draft :=
  match draft.opened with
  | [] => { draft with top := node :: draft.top }
  | inner :: outer => { draft with opened := { inner with nodes := node :: inner.nodes } :: outer }

def keep (draft : Draft) (tag : Tag) : Draft :=
  draft.add (.leaf tag.toBlock)

def close (draft : Draft) (ending : Option Tag) : Draft :=
  match draft.opened with
  | [] => draft
  | inner :: outer =>
    { draft with opened := outer }.add
      (.directive inner.opening inner.tag inner.nodes.reverse ending)

def otherwise (draft : Draft) (tag : Tag) : Draft :=
  match draft.opened with
  | ⟨.condition .., _, _⟩ :: _ => draft.add (.divider tag)
  | _ => draft.keep tag

def ends (draft : Draft) (kind : Option String) (tag : Tag) : Draft :=
  match draft.opened with
  | [] => draft.keep tag
  | inner :: _ => if inner.opening.endedBy kind then draft.close (some tag) else draft.keep tag

def readTag (draft : Draft) (tag : Tag) : Draft :=
  match Directive.ofTag? tag with
  | none => draft
  | some (.opens opening) => { draft with opened := ⟨opening, tag, []⟩ :: draft.opened }
  | some .otherwise => draft.otherwise tag
  | some (.ends kind) => draft.ends kind tag
  | some (.placeholder name recursive) =>
    draft.add (.leaf (.placeholder ⟨name, recursive, tag.braces == 2, tag.span⟩))

def read (draft : Draft) : Token → Draft
  | .raw text span _ => draft.add (.leaf (.text text span))
  | .tag tag => draft.readTag tag

def ofTokens (tokens : List Token) : Draft :=
  tokens.foldl read empty

/-- The nodes of a template that ends here, with the open directives completed. -/
def closed (draft : Draft) : List Node :=
  let inner := draft.opened.foldl (fun inner node =>
    [Node.directive node.opening node.tag (inner ++ node.nodes).reverse none]) []
  (inner ++ draft.top).reverse

/-! ## Depths -/

/-- Open directives that hold nodes of limited height, innermost first. -/
def LowOpen (bound : Nat) : List OpenNode → Prop
  | [] => True
  | node :: outer => outer.length + 1 + Node.heightList node.nodes ≤ bound ∧ LowOpen bound outer

theorem LowOpen.mono {bound more : Nat} {opened : List OpenNode} (low : LowOpen bound opened)
    (le : bound ≤ more) : LowOpen more opened := by
  induction opened with
  | nil => trivial
  | cons inner outer ih => exact ⟨Nat.le_trans low.1 le, ih low.2⟩

/-- A draft in which no more than `bound` directives are inside each other. -/
structure Low (bound : Nat) (draft : Draft) : Prop where
  top : Node.heightList draft.top ≤ bound
  opened : LowOpen bound draft.opened

namespace Low

variable {bound : Nat} {draft : Draft}

theorem length_opened_le (low : Low bound draft) : draft.opened.length ≤ bound := by
  have opened := low.opened
  cases same : draft.opened with
  | nil => exact Nat.zero_le _
  | cons inner outer =>
    rw [same] at opened
    have := opened.1
    rw [List.length_cons]
    omega

theorem mono {more : Nat} (low : Low bound draft) (le : bound ≤ more) : Low more draft :=
  ⟨Nat.le_trans low.top le, low.opened.mono le⟩

theorem add (low : Low bound draft) {node : Node}
    (fits : draft.opened.length + node.height ≤ bound) : Low bound (draft.add node) := by
  have opened := low.opened
  unfold Draft.add
  split
  · next none_open =>
    rw [none_open] at fits
    refine ⟨?_, low.opened⟩
    have := low.top
    rw [Node.heightList, Nat.max_le]
    exact ⟨by simpa using fits, this⟩
  · next inner outer same =>
    rw [same] at opened fits
    refine ⟨low.top, ?_, opened.2⟩
    have := opened.1
    rw [List.length_cons] at fits
    rw [Node.heightList]
    omega

theorem add_leaf (low : Low bound draft) (block : Block) : Low bound (draft.add (.leaf block)) :=
  low.add (by simpa [Node.height] using low.length_opened_le)

theorem close (low : Low bound draft) (ending : Option Tag) : Low bound (draft.close ending) := by
  have opened := low.opened
  unfold Draft.close
  split
  · exact low
  · next inner outer same =>
    rw [same] at opened
    have outer_low : Low bound { draft with opened := outer } := ⟨low.top, opened.2⟩
    refine outer_low.add ?_
    have := opened.1
    rw [Node.height, Node.heightList_reverse]
    show outer.length + _ ≤ _
    omega

theorem read (low : Low bound draft) (token : Token) : Low (bound + 1) (draft.read token) := by
  have later : ∀ {draft : Draft}, Low bound draft → Low (bound + 1) draft :=
    fun low => low.mono (Nat.le_succ _)
  cases token with
  | raw text span rejected => exact later (low.add_leaf _)
  | tag tag =>
    rw [Draft.read, readTag]
    split
    · exact later low
    · have := low.length_opened_le
      refine ⟨Nat.le_succ_of_le low.top, ?_, (later low).opened⟩
      rw [Node.heightList]
      omega
    · unfold Draft.otherwise
      split
      · exact later (low.add (by simpa [Node.height] using low.length_opened_le))
      · exact later (low.add_leaf _)
    · unfold Draft.ends
      split
      · exact later (low.add_leaf _)
      · split
        · exact later (low.close _)
        · exact later (low.add_leaf _)
    · exact later (low.add_leaf _)

end Low

theorem low_ofTokens (tokens : List Token) : Low tokens.length (ofTokens tokens) := by
  suffices ∀ bound draft, Low bound draft →
      Low (bound + tokens.length) (tokens.foldl Draft.read draft) by
    have := this 0 empty ⟨Nat.le_refl _, trivial⟩
    rwa [Nat.zero_add] at this
  induction tokens with
  | nil => exact fun _ _ low => low
  | cons token tokens ih =>
    intro bound draft low
    have := ih (bound + 1) (draft.read token) (low.read token)
    rwa [Nat.add_assoc, Nat.add_comm 1] at this

/-! ## Closing -/

/-- The innermost directive is completed first. -/
theorem closed_eq {draft : Draft} (opened : draft.opened ≠ []) :
    draft.closed = (draft.close none).closed := by
  obtain ⟨top, opened'⟩ := draft
  cases opened' with
  | nil => exact absurd rfl opened
  | cons inner outer =>
    cases outer with
    | nil => simp [closed, close, add]
    | cons next outer => simp [closed, close, add]

theorem length_opened_add (draft : Draft) (node : Node) :
    (draft.add node).opened.length = draft.opened.length := by
  unfold add
  split
  · rfl
  · next inner outer same =>
    rw [same]
    rfl

theorem length_opened_close (draft : Draft) (ending : Option Tag) :
    (draft.close ending).opened.length = draft.opened.length - 1 := by
  unfold close
  split
  · next none_open => rw [none_open]; rfl
  · next inner outer same =>
    rw [length_opened_add, same]
    rfl

theorem heightList_closed_le {bound : Nat} {draft : Draft} (low : Low bound draft) :
    Node.heightList draft.closed ≤ bound := by
  induction count : draft.opened.length generalizing draft with
  | zero =>
    have none_open := List.eq_nil_of_length_eq_zero count
    rw [closed, none_open, List.foldl_nil, List.nil_append, Node.heightList_reverse]
    exact low.top
  | succ count ih =>
    have opened : draft.opened ≠ [] := by
      intro none_open
      rw [none_open] at count
      cases count
    rw [closed_eq opened]
    refine ih (low.close none) ?_
    rw [length_opened_close]
    omega

/-- Where as many directives may be open as there are tokens, nothing is replaced. -/
theorem flattenList_of_length_le {tokens : List Token} {limit : Nat}
    (enough : tokens.length ≤ limit) :
    Node.flattenList limit (ofTokens tokens).closed = (ofTokens tokens).closed :=
  Node.flattenList_of_height_le _
    (Nat.le_trans (heightList_closed_le (low_ofTokens tokens)) enough)

end Draft

end Stencil
