import DeclarationBundle.Rewrite.Transcript
import DeclarationBundle.Syntax.Cursor

/-!
# Rewriting a source

A rewrite offers the nodes of a tree to a replacer, each before its children and all in document
order, and copies every octet of the source that no edit covers. The nodes below one that is
replaced are not offered, nor is a node that an earlier edit has reached into.

* `Rewrite.visit` is the walk for a replacer that answers by the node alone, and `Rewrite.rewrite`
  what comes of it.
* `Rewrite.visitWith` is the same walk for a replacer with a memory. `Rewrite.attempt` remembers the
  first node that the replacer fails on, where it may fail.
-/

namespace DeclarationBundle

open Syntax

/-- What to put in the place of a node. The edit covers the node at least, and all up to `reach`. -/
structure Edit where
  text : String
  reach : Nat
  deriving DecidableEq, Repr

/-- An edit that covers its node and no more. -/
def Edit.ofText (text : String) : Edit :=
  ⟨text, 0⟩

/-- Says which nodes to replace. -/
abbrev Replacer := Cursor → Option Edit

namespace Rewrite

mutual

/-- Offers a node and then, unless it is replaced, its children. -/
def visit (replacer : Replacer) : Node → List Frame → Transcript → Transcript
  | node@⟨_, start, stop, _, _, children⟩, above, t =>
    if start < t.position then t
    else
      let t := t.copyTo start
      match replacer ⟨node, above⟩ with
      | some edit => t.replace edit.text (max stop edit.reach)
      | none => visitAll replacer children node [] above t

/-- Offers some children of `parent` in order, those before them being `before`, nearest first. -/
def visitAll (replacer : Replacer) : List Node → Node → List Node → List Frame → Transcript →
    Transcript
  | [], _, _, _, t => t
  | node :: nodes, parent, before, above, t =>
    visitAll replacer nodes parent (node :: before) above
      (visit replacer node (⟨parent, before⟩ :: above) t)

end

/-- The transcript of a whole source. -/
def transcribe (tree : Node) (source : Bytes) (replacer : Replacer) : Transcript :=
  (visit replacer tree [] .empty).copyTo source.length

/-- **The source with every node that the replacer wants replaced.** -/
def rewrite (tree : Node) (source : Bytes) (replacer : Replacer) : Except Utf8.DecodeError String :=
  (transcribe tree source replacer).text source

/-- The replacer that keeps everything. -/
def keep : Replacer :=
  fun _ => none

section Memory

variable {σ : Type}

mutual

/-- The walk for a replacer with a memory, which can tell what it has been offered so far. -/
def visitWith (ask : Cursor → σ → Option Edit × σ) :
    Node → List Frame → Transcript × σ → Transcript × σ
  | node@⟨_, start, stop, _, _, children⟩, above, (t, memory) =>
    if start < t.position then (t, memory)
    else
      match ask ⟨node, above⟩ memory with
      | (some edit, memory) => ((t.copyTo start).replace edit.text (max stop edit.reach), memory)
      | (none, memory) => visitAllWith ask children node [] above (t.copyTo start, memory)

/-- The same for some children of `parent`, those before them being `before`, nearest first. -/
def visitAllWith (ask : Cursor → σ → Option Edit × σ) :
    List Node → Node → List Node → List Frame → Transcript × σ → Transcript × σ
  | [], _, _, _, state => state
  | node :: nodes, parent, before, above, state =>
    visitAllWith ask nodes parent (node :: before) above
      (visitWith ask node (⟨parent, before⟩ :: above) state)

end

/-- The replacer that answers like another and remembers something of what it is offered. -/
def remembering (replacer : Replacer) (remember : σ → Cursor → σ) (c : Cursor) (memory : σ) :
    Option Edit × σ :=
  (replacer c, remember memory c)

end Memory

/-- **A rewrite by a replacer that fails on some nodes**: it comes to nothing if one of these is
offered, and the first of them is to blame. -/
def attempt (tree : Node) (source : Bytes) (replacer : Replacer)
    (failure? : Cursor → Option Utf8.DecodeError) : Except Utf8.DecodeError String :=
  let ask := remembering replacer fun first c => first.or (failure? c)
  match visitWith ask tree [] (.empty, none) with
  | (_, some error) => .error error
  | (t, none) => (t.copyTo source.length).text source

end Rewrite

end DeclarationBundle
