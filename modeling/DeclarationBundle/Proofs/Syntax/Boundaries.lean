import DeclarationBundle.Proofs.Syntax.Aligned
import DeclarationBundle.Syntax.Tree

/-!
# The runnable parser cuts no character

Whatever a source is, the nodes that `Syntax.parse` reads it into begin and end between two of its
characters (`Syntax.isAligned_parse`). So this parser does what is asked of any parser.

Reading keeps one invariant, `Rest.IsIn`: what is left is the end of the source, and the offset
counts the octets before it. So every offset that a reader writes into a node is a boundary.
`Aligned` says this of the outcome of a reader, and there is one lemma for each reader, from the cut
of one token up to `Rule.read`.
-/

namespace DeclarationBundle.Syntax

variable {text : String} {r : Rest}

/-! ### What is left of a source -/

/-- The octets of some characters, counted one by one, are those of their encoding. -/
theorem octets_eq_length_encode (chars : List Char) :
    octets chars = (Utf8.encode (String.ofList chars)).length := by
  unfold octets Utf8.encode
  rw [String.toList_ofList]
  induction chars with
  | nil => rfl
  | cons c chars ih => rw [List.foldr_cons, List.flatMap_cons, List.length_append,
      String.length_utf8EncodeChar, ih]

/-- **What is left of a text**: its end, with the number of octets before. -/
def Rest.IsIn (text : String) (r : Rest) : Prop :=
  ∃ before, text.toList = before ++ r.chars ∧ r.offset = octets before

/-- At the beginning all of the text is left. -/
theorem Rest.isIn_start (text : String) : Rest.IsIn text ⟨0, text.toList⟩ :=
  ⟨[], rfl, rfl⟩

/-- **Where a reader stands, no character is cut.** -/
theorem Rest.IsIn.isBoundary (h : r.IsIn text) : Utf8.IsBoundary text r.offset := by
  obtain ⟨before, h_text, h_offset⟩ := h
  refine ⟨String.ofList before, String.ofList r.chars, ?_, ?_⟩
  · apply String.toList_inj.1
    rw [h_text, String.toList_append, String.toList_ofList, String.toList_ofList]
  · rw [h_offset, octets_eq_length_encode]

/-- To go on by some characters leaves the end of the text again. This is the only way that a reader
moves. -/
theorem Rest.IsIn.advance (h : r.IsIn text) (n : Nat) : (r.advance n).IsIn text := by
  obtain ⟨before, h_text, h_offset⟩ := h
  refine ⟨before ++ r.chars.take n, ?_, ?_⟩
  · show text.toList = before ++ r.chars.take n ++ r.chars.drop n
    rw [List.append_assoc, List.take_append_drop, h_text]
  · show r.offset + octets (r.chars.take n) = octets (before ++ r.chars.take n)
    rw [h_offset]
    simp only [octets_eq_length_encode, String.ofList_append, Utf8.encode_append,
        List.length_append]

/-! ### Nodes that cut no character -/

/-- All of some nodes cut no character, and what is left after them is the end of the text. -/
structure Aligned (text : String) (outcome : List Node × Rest) : Prop where
  nodes : ∀ node ∈ outcome.1, node.IsAligned text
  rest : outcome.2.IsIn text

/-- To read nothing cuts nothing. -/
theorem Aligned.nil (h : r.IsIn text) : Aligned text ([], r) :=
  ⟨fun _ h_mem => absurd h_mem List.not_mem_nil, h⟩

/-- What is read one after the other cuts nothing if neither part does. -/
theorem Aligned.append {nodes more : List Node} {next : Rest} (h : Aligned text (nodes, r))
    (h_more : Aligned text (more, next)) : Aligned text (nodes ++ more, next) := by
  refine ⟨fun node h_mem => ?_, h_more.rest⟩
  rcases List.mem_append.1 h_mem with h_mem | h_mem
  · exact h.nodes node h_mem
  · exact h_more.nodes node h_mem

/-- The same for one node before the others. -/
theorem Aligned.cons {node : Node} {nodes : List Node} {next : Rest} (h : Aligned text ([node], r))
    (h_more : Aligned text (nodes, next)) : Aligned text (node :: nodes, next) :=
  h.append h_more

/-- A node around what was read cuts no character if it begins and ends at what was left. -/
theorem Aligned.around {nodes : List Node} {next : Rest} (kind : Kind) (h : r.IsIn text)
    (h_nodes : Aligned text (nodes, next)) :
    Aligned text ([⟨kind, r.offset, next.offset, false, false, nodes⟩], next) := by
  refine ⟨fun node h_mem => ?_, h_nodes.rest⟩
  rw [List.mem_singleton.1 h_mem]
  exact .intro h.isBoundary h_nodes.rest.isBoundary h_nodes.nodes

/-- One token, cut off what is left. -/
theorem aligned_cut (h : r.IsIn text) (kind : Kind) (n : Nat) :
    Aligned text ([(r.cut kind n).1], (r.cut kind n).2) :=
  Aligned.around kind h (.nil (h.advance n))

/-! ### Tokens -/

/-- Blanks are passed over, and each comment among them is a node. -/
theorem aligned_gapFrom (h : r.IsIn text) (fuel : List Char) : Aligned text (gapFrom fuel r) := by
  -- on the fuel, of which each comment takes some
  induction fuel generalizing r with
  | nil => exact .nil h
  | cons c fuel ih =>
    have h_blanks := h.advance (r.chars.takeWhile isBlank).length
    unfold gapFrom
    simp only
    split
    · exact .nil h_blanks
    · next n h_length => exact (aligned_cut h_blanks .comment n).cons (ih (h_blanks.advance n))

/-- The characters that are left are fuel enough. -/
theorem aligned_gap (h : r.IsIn text) : Aligned text (gap r) :=
  aligned_gapFrom h _

/-- A token that a reader may have found. -/
def AlignedToken (text : String) (outcome : Option (Node × Rest)) : Prop :=
  ∀ node next, outcome = some (node, next) → Aligned text ([node], next)

/-- No token, nothing cut. -/
theorem alignedToken_none : AlignedToken text none :=
  fun _ _ h => by cases h

/-- A token that was found cuts nothing if it does not by itself. -/
theorem alignedToken_some {outcome : Node × Rest} (h : Aligned text ([outcome.1], outcome.2)) :
    AlignedToken text (some outcome) := by
  rintro node next ⟨⟩
  exact h

/-- A token of a given length. -/
theorem alignedToken_cut (h : r.IsIn text) (kind : Kind) (n : Nat) :
    AlignedToken text (some (r.cut kind n)) :=
  alignedToken_some (aligned_cut h kind n)

/-- A token whose length is known if there is one. -/
theorem alignedToken_map_cut (h : r.IsIn text) (kind : Kind) (length? : Option Nat) :
    AlignedToken text (length?.map (r.cut kind)) := by
  cases length? with
  | none => exact alignedToken_none
  | some n => exact alignedToken_cut h kind n

/-- The fragments and escapes of a string, up to the closing quote. -/
theorem aligned_stringParts {mark : Char} {fuel : Nat} {outcome : List Node × Rest}
    (h : r.IsIn text) (h_parts : stringParts mark fuel r = some outcome) :
    Aligned text outcome := by
  -- on the fuel, of which each part takes some
  induction fuel generalizing r outcome with
  | zero => cases h_parts
  | succ fuel ih =>
    unfold stringParts at h_parts
    split at h_parts
    · cases h_parts
    simp only at h_parts
    split at h_parts
    · cases h_parts
      exact aligned_cut h _ 1
    · -- the fragment or escape first, then the other parts
      have h_piece : AlignedToken text
          (if (r.chars.takeWhile fun d =>
              d != mark && d != '\\' && d != '\n' && d != '\r').isEmpty then
            (escapeLength? r.chars).map (r.cut (.phrase "escape"))
          else some (r.cut (.phrase "fragment")
            (r.chars.takeWhile fun d =>
              d != mark && d != '\\' && d != '\n' && d != '\r').length)) := by
        split
        · exact alignedToken_map_cut h _ _
        · exact alignedToken_cut h _ _
      split at h_parts
      · cases h_parts
      · next part next h_found =>
        have h_part := h_piece part next h_found
        obtain ⟨⟨parts, last⟩, h_rest, rfl⟩ := Option.map_eq_some_iff.1 h_parts
        exact h_part.cons (ih h_part.rest h_rest)

/-- A string: the opening quote, its parts, and a node around all of it. -/
theorem alignedToken_scanString (h : r.IsIn text) : AlignedToken text (scanString r) := by
  unfold scanString
  split
  · split
    · next c rest h_chars h_quote =>
      intro node next h_found
      obtain ⟨⟨parts, last⟩, h_parts, h_node⟩ := Option.map_eq_some_iff.1 h_found
      cases h_node
      exact .around .string h ((aligned_cut h _ 1).cons (aligned_stringParts (h.advance 1) h_parts))
    · exact alignedToken_none
  · exact alignedToken_none

/-- A regular expression has its pattern between two slashes, and flags after them if there are
any. -/
theorem alignedToken_scanRegularExpression (h : r.IsIn text) :
    AlignedToken text (scanRegularExpression r) := by
  unfold scanRegularExpression
  split
  · split
    · exact alignedToken_none
    · exact alignedToken_none
    · next n h_pattern h_some =>
      have h_opening := aligned_cut h (.token "/") 1
      have h_middle := aligned_cut h_opening.rest (.phrase "pattern") n
      have h_closing := aligned_cut h_middle.rest (.token "/") 1
      have h_marks := h_opening.cons (h_middle.cons h_closing)
      simp only
      split
      · exact alignedToken_some (.around _ h (h_marks.append (.nil h_closing.rest)))
      · exact alignedToken_some (.around _ h (h_marks.append (aligned_cut h_closing.rest _ _)))
  · exact alignedToken_none

/-- A mark is a token, and any other character is one by itself. -/
theorem alignedToken_scanMark (h : r.IsIn text) : AlignedToken text (scanMark r) := by
  unfold scanMark
  split
  · exact alignedToken_cut h _ _
  · cases r.chars.head? with
    | none => exact alignedToken_none
    | some c => exact alignedToken_cut h _ 1

/-- A name, unless it is barred here. -/
theorem alignedToken_scanName (h : r.IsIn text) (construct : String) (barred : List String) :
    AlignedToken text (scanName construct barred r) := by
  unfold scanName
  split
  · exact alignedToken_none
  · split
    · exact alignedToken_none
    · exact alignedToken_cut h _ _

/-- **No token cuts a character.** -/
theorem alignedToken_scan (h : r.IsIn text) (lexeme : Lexeme) :
    AlignedToken text (lexeme.scan r) := by
  -- one case for each kind of token, each of which is cut off what is left
  cases lexeme with
  | mark spelling barred =>
    unfold Lexeme.scan
    simp only
    split
    · exact alignedToken_cut h _ _
    · exact alignedToken_none
  | keyword spelling =>
    unfold Lexeme.scan
    simp only
    split
    · exact alignedToken_cut h _ _
    · exact alignedToken_none
  | name construct barred => exact alignedToken_scanName h construct barred
  | privateName =>
    unfold Lexeme.scan
    simp only
    split
    · next rest h_chars =>
      cases nameHere? rest with
      | none => exact alignedToken_none
      | some name => exact alignedToken_cut h _ _
    · exact alignedToken_none
  | number => exact alignedToken_map_cut h _ _
  | string => exact alignedToken_scanString h
  | regularExpression => exact alignedToken_scanRegularExpression h
  | templateText =>
    unfold Lexeme.scan
    simp only
    split
    · exact alignedToken_none
    · exact alignedToken_cut h _ _
  | escape => exact alignedToken_map_cut h _ _
  | interpreterLine =>
    unfold Lexeme.scan
    simp only
    split
    · exact alignedToken_cut h _ _
    · exact alignedToken_none
  | anything =>
    unfold Lexeme.scan
    simp only
    split
    · next found h_found => exact h_found ▸ alignedToken_scanString h
    split
    · exact alignedToken_cut h _ _
    split
    · next found h_found => exact h_found ▸ alignedToken_scanName h _ _
    · exact alignedToken_scanMark h

/-! ### Phrases -/

/-- A construct around some nodes leaves the comments before it outside. -/
theorem aligned_wrap {nodes : List Node} (construct : String) (h : Aligned text (nodes, r)) :
    Aligned text (Node.wrap construct nodes, r) := by
  unfold Node.wrap
  simp only
  split
  · next first rest last h_inside h_last =>
    have h_mem : ∀ node ∈ nodes.dropWhile Node.isComment, node.IsAligned text := fun node h_node =>
      h.nodes node ((List.dropWhile_sublist _).subset h_node)
    -- the construct begins where its first node does and ends where its last does
    obtain ⟨h_start, -, -⟩ := h_mem first (h_inside ▸ List.mem_cons_self ..)
    obtain ⟨-, h_stop, -⟩ := h_mem last (List.mem_of_getLast? h_last)
    refine ⟨fun node h_node => ?_, h.rest⟩
    rcases List.mem_append.1 h_node with h_node | h_node
    · exact h.nodes node ((List.takeWhile_sublist _).subset h_node)
    · rw [List.mem_singleton.1 h_node]
      exact .intro h_start h_stop h_mem
  · exact h

/-- To mark the last node as the one that names the module moves nothing. -/
theorem aligned_markSource {nodes : List Node} (h : Aligned text (nodes, r)) :
    Aligned text (Rule.markSource nodes, r) := by
  unfold Rule.markSource
  split
  · exact .nil h.rest
  · next last before h_reverse =>
    have h_mem : ∀ node ∈ last :: before, node.IsAligned text := fun node h_node =>
      h.nodes node (List.mem_reverse.1 (h_reverse ▸ h_node))
    obtain ⟨h_start, h_stop, h_children⟩ := h_mem last (List.mem_cons_self ..)
    refine ⟨fun node h_node => ?_, h.rest⟩
    rcases List.mem_cons.1 (List.mem_reverse.1 h_node) with rfl | h_node
    · exact .intro h_start h_stop h_children
    · exact h_mem node (List.mem_cons_of_mem _ h_node)

section Rules

variable {φ : Type} {read : Rule φ → Rest → Rule.Result}

/-- A reader that cuts no character, wherever it begins in the text. -/
def AlignedReader (text : String) (read : Rest → Rule.Result) : Prop :=
  ∀ r, Rest.IsIn text r → ∀ outcome, read r = some outcome → Aligned text outcome

/-- Rules one after the other. -/
theorem aligned_readAll (h_read : ∀ rule, AlignedReader text (read rule)) (rules : List (Rule φ)) :
    AlignedReader text (Rule.readAll read rules) := by
  induction rules with
  | nil =>
    rintro r h _ ⟨⟩
    exact .nil h
  | cons rule rules ih =>
    intro r h outcome h_found
    unfold Rule.readAll at h_found
    split at h_found
    · cases h_found
    · next nodes next h_first =>
      have h_nodes := h_read rule r h _ h_first
      split at h_found
      · cases h_found
      · next more last h_rest =>
        cases h_found
        exact h_nodes.append (ih next h_nodes.rest _ h_rest)

/-- The first of some rules that reads anything. -/
theorem aligned_readFirst (h_read : ∀ rule, AlignedReader text (read rule))
    (rules : List (Rule φ)) : AlignedReader text (Rule.readFirst read rules) := by
  induction rules with
  | nil => exact fun _ _ _ h_found => by cases h_found
  | cons rule rules ih =>
    intro r h outcome h_found
    unfold Rule.readFirst at h_found
    split at h_found
    · next found h_first =>
      cases h_found
      exact h_read rule r h _ h_first
    · exact ih r h outcome h_found

/-- A rule as often as it reads anything. -/
theorem aligned_readMany {read : Rest → Rule.Result} (h_read : AlignedReader text read)
    (h : r.IsIn text) (count : Nat) : Aligned text (Rule.readMany read count r) := by
  induction count generalizing r with
  | zero => exact .nil h
  | succ count ih =>
    unfold Rule.readMany
    split
    · exact .nil h
    · next nodes next h_found =>
      have h_nodes := h_read r h _ h_found
      split
      · exact .nil h
      · exact h_nodes.append (ih h_nodes.rest)

/-- The first of some tails that reads anything, with the construct that it makes. -/
theorem aligned_readTail (h_read : ∀ rule, AlignedReader text (read rule)) (h : r.IsIn text)
    {tails : List (String × Rule φ)} {construct : String} {nodes : List Node} {next : Rest}
    (h_found : Rule.readTail read tails r = some (construct, nodes, next)) :
    Aligned text (nodes, next) := by
  induction tails with
  | nil => cases h_found
  | cons tail tails ih =>
    unfold Rule.readTail at h_found
    split at h_found
    · next found last h_first =>
      cases h_found
      exact h_read _ r h _ h_first
    · exact ih h_found

/-- Tails as long as there are any, each of which is wrapped around what was read before. -/
theorem aligned_readTails (h_read : ∀ rule, AlignedReader text (read rule))
    (tails : List (String × Rule φ)) (count : Nat) {nodes : List Node}
    (h : Aligned text (nodes, r)) : Aligned text (Rule.readTails read tails count nodes r) := by
  induction count generalizing r nodes with
  | zero => exact h
  | succ count ih =>
    unfold Rule.readTails
    split
    · exact h
    · next construct more next h_found =>
      split
      · exact h
      · -- what was read so far and the tail are one construct, to which the next tail is added
        exact ih (aligned_wrap construct (h.append (aligned_readTail h_read h.rest h_found)))

/-- **Reading by a rule cuts no character**, whatever the grammar is. -/
theorem aligned_read (grammar : φ → Rule φ) (depth : Nat) (rule : Rule φ) :
    AlignedReader text (Rule.read grammar depth rule) := by
  -- every constructor reads its parts at a smaller depth, so the induction is on the depth alone
  induction depth generalizing rule with
  | zero => exact fun _ _ _ h_found => by cases h_found
  | succ depth ih =>
    intro r h outcome h_found
    cases rule with
    | token lexeme =>
      obtain ⟨⟨found, last⟩, h_scan, rfl⟩ := Option.map_eq_some_iff.1 h_found
      have h_gap := aligned_gap h
      exact h_gap.append (alignedToken_scan h_gap.rest lexeme found last h_scan)
    | glued lexeme =>
      obtain ⟨⟨found, last⟩, h_scan, rfl⟩ := Option.map_eq_some_iff.1 h_found
      exact alignedToken_scan h lexeme found last h_scan
    | phrase name => exact ih (grammar name) r h outcome h_found
    | seq rules => exact aligned_readAll ih rules r h outcome h_found
    | choice rules => exact aligned_readFirst ih rules r h outcome h_found
    | many rule =>
      cases h_found
      exact aligned_readMany (ih rule) h depth
    | ahead rule =>
      obtain ⟨_, -, rfl⟩ := Option.map_eq_some_iff.1 h_found
      exact .nil h
    | «unless» rule =>
      unfold Rule.read at h_found
      simp only at h_found
      split at h_found
      · cases h_found
      · cases h_found
        exact .nil h
    | node construct rule =>
      obtain ⟨⟨nodes, next⟩, h_nodes, rfl⟩ := Option.map_eq_some_iff.1 h_found
      exact aligned_wrap construct (ih rule r h _ h_nodes)
    | source rule =>
      obtain ⟨⟨nodes, next⟩, h_nodes, rfl⟩ := Option.map_eq_some_iff.1 h_found
      exact aligned_markSource (ih rule r h _ h_nodes)
    | chain base tails =>
      obtain ⟨⟨nodes, next⟩, h_nodes, rfl⟩ := Option.map_eq_some_iff.1 h_found
      exact aligned_readTails ih tails depth (ih base r h _ h_nodes)
    | lineEnd afterOperand afterSignature =>
      obtain ⟨-, h_outcome⟩ := Option.ite_none_right_eq_some.1 h_found
      cases h_outcome
      exact .nil h
    | missing spelling =>
      -- a token of no length, where the reader stands
      cases h_found
      exact ⟨fun node h_mem => List.mem_singleton.1 h_mem ▸
        .intro h.isBoundary h.isBoundary fun _ h_child => absurd h_child List.not_mem_nil, h⟩
    | closesBefore marks =>
      obtain ⟨-, h_outcome⟩ := Option.ite_none_right_eq_some.1 h_found
      cases h_outcome
      exact .nil h

end Rules

/-! ### Whole sources -/

/-- The octets of a text are those of its encoding. -/
theorem octets_toList (text : String) : octets text.toList = (Utf8.encode text).length := by
  rw [octets_eq_length_encode, String.ofList_toList]

/-- What begins where its first node does, if it has one. -/
theorem isBoundary_start {nodes : List Node} {stop : Nat} (h : ∀ node ∈ nodes, node.IsAligned text)
    (h_stop : Utf8.IsBoundary text stop) :
    Utf8.IsBoundary text ((nodes.head?.map (·.start)).getD stop) := by
  cases nodes with
  | nil => exact h_stop
  | cons first rest =>
    obtain ⟨h_start, -, -⟩ := h first (List.mem_cons_self ..)
    exact h_start

/-- **The tree of a source cuts no character of it.** -/
theorem isAligned_parse (text : String) : (parse text).IsAligned text := by
  have h_start := Rest.isIn_start text
  have h_read : Aligned text ((Rule.read grammar (depthBound text.toList.length) (.phrase .program)
      ⟨0, text.toList⟩).getD ([], ⟨0, text.toList⟩)) := by
    cases h_program : Rule.read grammar (depthBound text.toList.length) (.phrase .program)
        ⟨0, text.toList⟩ with
    | none => exact .nil h_start
    | some outcome => exact aligned_read grammar _ _ _ h_start outcome h_program
  -- what the grammar leaves over at the end are blanks and comments
  have h_children := h_read.append (aligned_gap h_read.rest)
  have h_end : Utf8.IsBoundary text (octets text.toList) :=
    octets_toList text ▸ Utf8.isBoundary_length text
  exact .intro (isBoundary_start h_children.nodes h_end) h_end h_children.nodes

end DeclarationBundle.Syntax
