import DeclarationBundle.Proofs.Bundle.LifeCycle
import DeclarationBundle.Proofs.Bundle.Plan
import DeclarationBundle.Proofs.Syntax.Boundaries
import DeclarationBundle.Proofs.Text.Indentation

/-!
# What a block keeps of a module

A module stands in its block indented. `Section.unwrap?` takes the block away again, and what was
stored for a module is the module once that is done: `Output.exists_put_block_eq`.

Indentation goes by line ends, not by tokens, so a template of several lines does not stand in the
block with the characters it had: `Script.not_forall_literal_isInfix`. What every token of a module
becomes, and which ones stay as they are, is said by `Script.exists_sectionOf_standing`, for any
tree over the text of the module whose nodes cut no character. Which parser has made the tree, and
what it takes for a token, makes no difference.
-/

namespace DeclarationBundle

namespace Section

/-- What stands before the content of a block. -/
def blockHead (style : Style) (id : String) : String :=
  "declare module '" ++ id ++ "' \x7b" ++ style.eol ++ style.indent

/-- What stands after the content of a block. -/
def blockTail (style : Style) : String :=
  style.eol ++ "\x7d" ++ style.eol

/-- **The content of a block**: the block without head, tail and indentation. -/
def unwrap? (style : Style) (id stored : String) : Option String :=
  ((Text.dropStart? (blockHead style id) stored).bind (Text.dropTail? (blockTail style))).bind
    (Text.unindentLines? style.eol style.indent)

variable {style : Style}

/-- A block is its content, indented, between a head and a tail. -/
theorem text_block (id content : String) : (Section.block id content).text style
    = blockHead style id ++ Text.indentLines style.eol style.indent content ++ blockTail style := by
  show String.join [blockHead style id, _, blockTail style] = _
  simp [String.append_assoc]

/-- **The content of a block is read back from the text of the block**, if indentation can be told
from line ends. -/
theorem unwrap?_text_block (h_ne : style.eol ≠ "") (h_eol : Text.IsUnbordered style.eol)
    (h_apart : ∀ c ∈ style.indent.toList, c ∉ style.eol.toList) (id content : String) :
    unwrap? style id ((Section.block id content).text style) = some content := by
  unfold unwrap?
  rw [text_block, String.append_assoc, Text.dropStart?_append, Option.bind_some,
    Text.dropTail?_append, Option.bind_some, Text.unindentLines?_indentLines h_ne h_eol h_apart]

end Section

namespace Output

variable {o : Output} {style : Style}

/-- **Wrapping loses nothing.** What an output stores for a block is the content of the block once
head, tail and indentation are taken away. The line end is not empty and cannot overlap itself, so
that the lines are known, and it shares no character with the indentation, so that the indentation
adds none. -/
theorem exists_put_block_eq (h_ne : style.eol ≠ "") (h_eol : Text.IsUnbordered style.eol)
    (h_apart : ∀ c ∈ style.indent.toList, c ∉ style.eol.toList) (id content : String)
    (h_open : o.sink.closings = 0)
    (h_takes : o.behaviour.Takes o.sink.writes ((Section.block id content).writes style)) :
    ∃ stored, (o.put style (.block id content)).2 = none ∧
      (o.put style (.block id content)).1.sink.text = o.sink.text ++ stored ∧
      Section.unwrap? style id stored = some content := by
  have h_put : o.put style (.block id content)
      = (o.holding ((Section.block id content).writes style), none) := by
    unfold put
    rw [← List.append_nil ((Section.block id content).writes style),
      writeAll_append h_open h_takes []]
    rfl
  refine ⟨(Section.block id content).text style, ?_, ?_,
    Section.unwrap?_text_block h_ne h_eol h_apart id content⟩
  · rw [h_put]
  · rw [h_put]
    rfl

/-- A content with an empty line, a line that is indented already, one that holds a line feed, and a
line end at its end. -/
theorem exists_put_block_eq_crlf :
    let o := fresh .faultless none
    let style : Style := ⟨"\r\n", "\t"⟩
    let content := "a\r\n\r\n\tb\nc\r\n"
    ∃ stored, (o.put style (.block "pkg/a" content)).2 = none ∧
      (o.put style (.block "pkg/a" content)).1.sink.text = "" ++ stored ∧
      Section.unwrap? style "pkg/a" stored = some content := by
  have h_eol : Text.IsUnbordered "\r\n" := by decide
  have h_apart : ∀ c ∈ "\t".toList, c ∉ "\r\n".toList := by simp
  exact exists_put_block_eq (by decide) h_eol h_apart _ _ rfl ⟨rfl, rfl, rfl, trivial⟩

/-- The stored text itself. -/
example : (Section.block "pkg/a" "a\r\n\r\n\tb\nc\r\n").text ⟨"\r\n", "\t"⟩
    = "declare module 'pkg/a' \x7b\r\n\ta\r\n\r\n\t\tb\nc\r\n\r\n\x7d\r\n" := by
  decide

end Output

namespace Syntax

/-- A string literal or the keyword of the string type, or a template with or without
substitutions. -/
def Node.isLiteral (node : Node) : Bool :=
  node.isString || node.isCalled "template string" || node.isCalled "template literal type"

end Syntax

namespace Script

open Syntax

/-- **How a part of a module stands in its block.** The part follows `before` in the content. -/
structure StandsIn (style : Style) (id content before part : String) : Prop where
  /-- It stands at its place, with the indentation that falls inside it. -/
  exists_text_eq : ∃ front back, (Section.block id content).text style
      = front ++ Text.standing style.eol style.indent content before.length part ++ back ∧
    front.length = (Section.blockHead style id).length
      + Text.shifted style.eol style.indent content before.length
  /-- It has the characters it had exactly if the indentation is empty or no line starts inside
  it. -/
  standing_eq_iff : Text.standing style.eol style.indent content before.length part = part ↔
    style.indent = "" ∨ ∀ place ∈ Text.lineStarts style.eol content,
      ¬ (before.length < place ∧ place < before.length + part.length)
  /-- So it has if no line end ends in it. -/
  standing_eq : (∀ last ∈ style.eol.toList.getLast?, last ∉ part.toList) →
    Text.standing style.eol style.indent content before.length part = part

/-- What follows `before` in the content has its place in the block: behind the head, and after what
the indentation has added before it. -/
theorem standsIn {content before part after : String} (style : Style) (id : String)
    (h : content = before ++ part ++ after) : StandsIn style id content before part where
  exists_text_eq := by
    obtain ⟨front, back, h_text, h_front⟩ := Text.exists_indentLines_eq style.eol style.indent h
    refine ⟨Section.blockHead style id ++ front, back ++ Section.blockTail style, ?_, ?_⟩
    · rw [Section.text_block, h_text]
      simp only [String.append_assoc]
    · rw [String.length_append, h_front]
  standing_eq_iff := Text.standing_eq_self_iff
  standing_eq := Text.standing_eq_self_of_not_mem h

/-- **What becomes of the tokens of a module.** A declaration that is a module, and whose tree cuts
no character, stands in a block, and indentation is put in where a line starts that holds something:
right after line ends only, and after all such line ends if none can overlap another. Whatever the
content is read into, if only the nodes cut no character of it, each of them, be it a token, a
literal or a part of one, stands in the block with the indentation that falls inside it. -/
theorem exists_sectionOf_standing {d : Declaration} (h_module : d.isExternalModule = true)
    (h_aligned : d.tree.IsAligned d.text) (config : Config) (style : Style) :
    ∃ id content, sectionOf config d = .ok (.block id content) ∧
      (∀ place ∈ Text.lineStarts style.eol content, Text.OpensAt style.eol content place) ∧
      (Text.IsUnbordered style.eol → ∀ place, Text.OpensAt style.eol content place →
        place ∈ Text.lineStarts style.eol content) ∧
      ∀ tree : Node, tree.IsAligned content → ∀ c ∈ (Cursor.root tree).preorder,
        ∃ before part after, content = before ++ part ++ after ∧
          c.node.start = (Utf8.encode before).length ∧
            c.node.text (Utf8.encode content) = Utf8.encode part ∧
              StandsIn style id content before part := by
  obtain ⟨content, h_content⟩ := Declaration.exists_rehomed_eq_ok h_aligned
    (ModuleId.ofFile d.fileName config.baseDir config.name)
  refine ⟨_, content, Bundle.sectionOf_of_module h_module h_content,
    fun place => Text.opensAt_of_mem_lineStarts,
    fun h_eol place => Text.mem_lineStarts_of_opensAt h_eol, fun tree h_tree c hc => ?_⟩
  -- a node that cuts no character covers a part of the content, and any part of it will do
  obtain ⟨before, part, after, h_parts, h_start, h_text⟩ :=
    (h_tree.of_mem_preorder hc).exists_text_eq
  exact ⟨before, part, after, h_parts, h_start, h_text, standsIn style _ h_parts⟩

/-- A module that exports a template of two lines. -/
def twoLines : Declaration :=
  .parsed parse "/work/src/a.d.ts" "export type T = \x60a\nb\x60;\n"

/-- The module is moved as it is, as it refers to nothing. -/
theorem sectionOf_twoLines :
    sectionOf Bundle.smallConfig twoLines = .ok (.block "pkg/a" twoLines.text) := by
  decide +kernel

/-- The template is a literal of it, and has a line end inside. -/
theorem exists_literal_twoLines :
    ∃ c ∈ (Cursor.root twoLines.tree).preorder, c.node.isLiteral = true ∧
      c.node.text (Utf8.encode twoLines.text) = Utf8.encode "\x60a\nb\x60" := by
  decide +kernel

/-- The template is indented with the rest. -/
theorem exists_sectionOf_standing_twoLines :
    ∃ before, StandsIn ⟨"\n", "\t"⟩ "pkg/a" twoLines.text before "\x60a\nb\x60" := by
  obtain ⟨id, content, h_section, -, -, h_nodes⟩ :=
    @exists_sectionOf_standing twoLines (by decide +kernel) (isAligned_parse _) Bundle.smallConfig
      ⟨"\n", "\t"⟩
  cases sectionOf_twoLines.symm.trans h_section
  obtain ⟨c, hc, -, h_literal⟩ := exists_literal_twoLines
  obtain ⟨before, part, after, -, -, h_part, h_stands⟩ :=
    h_nodes twoLines.tree (isAligned_parse _) c hc
  exact ⟨before, Utf8.encode_injective (h_literal.symm.trans h_part) ▸ h_stands⟩

/-- **A literal of several lines does not stand in its block with the characters it had.** -/
theorem not_forall_literal_isInfix :
    ¬ ∀ (config : Config) (style : Style) (d : Declaration) (id content : String) (tree : Node),
      (∀ c ∈ style.indent.toList, c = ' ' ∨ c = '\t') →
      sectionOf config d = .ok (.block id content) → tree.IsAligned content →
      ∀ c ∈ (Cursor.root tree).preorder, c.node.isLiteral = true →
        ∀ part : String, c.node.text (Utf8.encode content) = Utf8.encode part →
          part.toList <:+: ((Section.block id content).text style).toList := by
  intro h
  obtain ⟨c, hc, h_literal, h_text⟩ := exists_literal_twoLines
  refine absurd (h _ ⟨"\n", "\t"⟩ _ _ _ _ (by simp) sectionOf_twoLines (isAligned_parse _) c hc
    h_literal _ h_text) ?_
  decide +kernel

end Script

end DeclarationBundle
