import Graced.Forest

/-!
# Drawn forests

A forest is drawn with one line for every value, in preorder. A line begins with the indent of
its siblings; below a value the indent goes on with a column, which may depend on whether the
value is the last of its siblings. A reader that counts the columns of a line gets the depth of
its value, and so the forest back.
-/

namespace Graced.Forest

universe u v
variable {α : Type u} {β : Type v}

/-- What stands on the line of a value after the indent, and the column below it, for the last
of some siblings and for the others. -/
structure Drawing (α : Type u) where
  head : Bool → α → String
  column : Bool → α → String

/-- There is no tree. -/
def isNil : Forest α → Bool
  | nil => true
  | node _ _ _ => false

/-- The lines of a forest whose roots have the given indent. -/
def draw (drawing : Drawing α) (indent : String) : Forest α → List String
  | nil => []
  | node value children siblings =>
    (indent ++ drawing.head siblings.isNil value) ::
      (draw drawing (indent ++ drawing.column siblings.isNil value) children ++
        draw drawing indent siblings)

/-- The forest with these trees, each a value with its children. -/
def ofTrees : List (α × Forest α) → Forest α
  | [] => nil
  | (value, children) :: rest => node value children (ofTrees rest)

/-- A column adds one to what a reader counts, and at the line's own text it has counted
nothing. -/
structure Legible (drawing : Drawing α) (columns : List Char → Nat × β) (text : α → β) :
    Prop where
  column : ∀ last value rest, columns ((drawing.column last value).toList ++ rest) =
    ((columns rest).1 + 1, (columns rest).2)
  head : ∀ last value, columns (drawing.head last value).toList = (0, text value)

/-- A value with its depth. -/
def atDepth (text : α → β) (depth : Nat) (value : α) : Nat × β := (depth, text value)

/-- One entry of a listing is deeper than another. -/
def deeper (first second : Nat × β) : Bool := first.1 < second.1

/-- Trees side by side are drawn one after the other; the last one is drawn as such. -/
theorem draw_ofTrees (drawing : Drawing α) (indent : String) (trees : List (α × Forest α)) :
    draw drawing indent (ofTrees trees) = trees.zipIdx.flatMap (fun tree =>
      (indent ++ drawing.head (tree.2 = trees.length - 1) tree.1.1) ::
        draw drawing (indent ++ drawing.column (tree.2 = trees.length - 1) tree.1.1)
          tree.1.2) := by
  have shifted (first : Nat) : draw drawing indent (ofTrees trees) =
      (trees.zipIdx first).flatMap (fun tree =>
        (indent ++ drawing.head (tree.2 = first + trees.length - 1) tree.1.1) ::
          draw drawing (indent ++ drawing.column (tree.2 = first + trees.length - 1) tree.1.1)
            tree.1.2) := by
    induction trees generalizing first with
    | nil => rfl
    | cons tree rest inductionHypothesis =>
      obtain ⟨value, children⟩ := tree
      have last : (ofTrees rest).isNil = decide (first = first + (rest.length + 1) - 1) := by
        cases rest with
        | nil => simp [ofTrees, isNil]
        | cons next others => simp [ofTrees, isNil]
      have later := inductionHypothesis (first + 1)
      have length : first + 1 + rest.length - 1 = first + (rest.length + 1) - 1 := by omega
      rw [length] at later
      rw [ofTrees, draw, last, later]
      simp
  simpa using shifted 0

/-- Numbered items side by side, each with a tree of its own. -/
theorem draw_numbered {ι : Type} (drawing : Drawing α) (indent : String) (items : List ι)
    (tree : Nat → ι → α × Forest α) :
    draw drawing indent (ofTrees (items.zipIdx.map (fun item => tree item.2 item.1))) =
      items.zipIdx.flatMap (fun item =>
        (indent ++ drawing.head (item.2 = items.length - 1) (tree item.2 item.1).1) ::
          draw drawing
            (indent ++ drawing.column (item.2 = items.length - 1) (tree item.2 item.1).1)
            (tree item.2 item.1).2) := by
  have numbered : (items.zipIdx.map (fun item => tree item.2 item.1)).zipIdx =
      items.zipIdx.map (fun item => (tree item.2 item.1, item.2)) := by
    apply List.ext_getElem
    · simp
    · intro index _ _
      simp
  rw [draw_ofTrees, numbered, List.flatMap_map, List.length_map, List.length_zipIdx]

/-- Reading the lines of a drawing gives the values in preorder, each with its depth. -/
theorem read_draw (drawing : Drawing α) (columns : List Char → Nat × β) (text : α → β)
    (legible : Legible drawing columns text) (read : List Char → Nat × β) (forest : Forest α)
    (depth : Nat) (indent : String)
    (indented : ∀ rest, read (indent.toList ++ rest) =
      ((columns rest).1 + depth, (columns rest).2)) :
    (draw drawing indent forest).map (fun line => read line.toList) =
      (forest.label (atDepth text) depth).preorder := by
  induction forest generalizing depth indent with
  | nil => rfl
  | node value children siblings inner later =>
    have below : ∀ rest, read ((indent ++ drawing.column siblings.isNil value).toList ++ rest) =
        ((columns rest).1 + (depth + 1), (columns rest).2) := by
      intro rest
      rw [String.toList_append, List.append_assoc, indented, legible.column]
      exact Prod.ext (by simp only; omega) rfl
    have own : read (indent ++ drawing.head siblings.isNil value).toList =
        atDepth text depth value := by
      rw [String.toList_append, indented, legible.head, Nat.zero_add]
      rfl
    rw [draw, List.map_cons, List.map_append, own, inner (depth + 1) _ below,
      later depth indent indented]
    rfl

/-- Without the depths the texts remain. -/
theorem map_atDepth (text : α → β) (depth : Nat) (forest : Forest α) :
    (forest.label (atDepth text) depth).map Prod.snd = forest.map text := by
  induction forest generalizing depth with
  | nil => rfl
  | node value children siblings inner later => simp [label, map, atDepth, inner, later]

/-- The forest is what the drawn lines nest to. -/
theorem nest_draw (drawing : Drawing α) (columns : List Char → Nat × β) (text : α → β)
    (legible : Legible drawing columns text) (read : List Char → Nat × β) (forest : Forest α)
    (indent : String) (indented : ∀ rest, read (indent.toList ++ rest) = columns rest) :
    (nest deeper ((draw drawing indent forest).map (fun line => read line.toList))).map Prod.snd =
      forest.map text := by
  rw [read_draw drawing columns text legible read forest 0 indent indented]
  have rebuilt := nest_preorder_label deeper (atDepth text)
    (fun depth value depth' value' => rfl) forest 0 [] (by simp)
  rw [List.append_nil] at rebuilt
  rw [rebuilt, nest, append_nil]
  exact map_atDepth text 0 forest

end Graced.Forest
