import DeclarationBundle.Proofs.Syntax.Preorder
import DeclarationBundle.Proofs.Text.Encoding

/-!
# Trees that cut no character

A tree is read from a text, and its nodes begin and end at octets of it. `Node.IsAligned` says that
none of them cuts a character in two. This is all that is asked of a parser anywhere, and only where
something depends on it: what such a node covers is text and a part of the whole
(`Node.IsAligned.exists_text_eq`).
-/

namespace DeclarationBundle.Syntax

variable {text : String}

/-- **A node that cuts no character** of a text, nor does any below it. -/
inductive Node.IsAligned (text : String) : Node → Prop where
  | intro {node : Node} (h_start : Utf8.IsBoundary text node.start)
      (h_stop : Utf8.IsBoundary text node.stop)
      (h_children : ∀ child ∈ node.children, Node.IsAligned text child) : Node.IsAligned text node

/-- What holds of a node and all below it holds at every place there: the two forms of
`IsAligned.of_mem_preorder`. -/
private theorem isAligned_of_mem_all :
    (∀ (node : Node) (above : List Frame), node.IsAligned text →
      ∀ c ∈ nodesAt node above, c.node.IsAligned text) ∧
    ∀ (nodes : List Node) (parent : Node) (before : List Node) (above : List Frame),
      (∀ node ∈ nodes, node.IsAligned text) →
        ∀ c ∈ nodesAmong nodes parent before above, c.node.IsAligned text := by
  refine Node.induction _ _ ?node ?nil ?cons
  case node =>
    intro node ih above h c hc
    rw [nodesAt_eq] at hc
    rcases List.mem_cons.1 hc with rfl | hc
    · exact h
    · -- a place below the node is at or below one of its children
      obtain ⟨-, -, h_children⟩ := h
      exact ih node [] above h_children c hc
  case nil => exact fun _ _ _ _ c hc => absurd hc List.not_mem_nil
  case cons =>
    intro node nodes ih ih_nodes parent before above h c hc
    rw [nodesAmong] at hc
    rcases List.mem_append.1 hc with hc | hc
    · exact ih _ (h node (List.mem_cons_self ..)) c hc
    · exact ih_nodes _ _ _ (fun other h_other => h other (List.mem_cons_of_mem _ h_other)) c hc

/-- **Every node of an aligned tree is aligned**, wherever it stands. From here on the parser need
not be looked at. -/
theorem Node.IsAligned.of_mem_preorder {c d : Cursor} (h : c.node.IsAligned text)
    (hd : d ∈ c.preorder) : d.node.IsAligned text :=
  isAligned_of_mem_all.1 c.node c.above h d hd

/-- **What a node covers is a part of the text**, which begins where the node does. No order is
asked of the two ends of the node: one that ends before it begins covers nothing. -/
theorem Node.IsAligned.exists_text_eq {node : Node} (h : node.IsAligned text) :
    ∃ before part after, text = before ++ part ++ after ∧
      node.start = (Utf8.encode before).length ∧
        node.text (Utf8.encode text) = Utf8.encode part := by
  obtain ⟨h_start, h_stop, -⟩ := h
  by_cases h_le : node.start ≤ node.stop
  · obtain ⟨before, part, after, rfl, h_before, h_part⟩ :=
      Utf8.exists_append_of_isBoundary h_start h_stop h_le
    refine ⟨before, part, after, rfl, h_before, ?_⟩
    rw [Node.text, h_before, h_part]
    simp
  · -- the node ends before it begins, so it covers nothing, at the place where it begins
    obtain ⟨before, after, rfl, h_before⟩ := h_start
    refine ⟨before, "", after, by simp, h_before, ?_⟩
    rw [Node.text, Nat.sub_eq_zero_of_le (Nat.le_of_not_le h_le)]
    simp

end DeclarationBundle.Syntax
