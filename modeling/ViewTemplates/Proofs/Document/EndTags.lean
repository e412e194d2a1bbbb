import ViewTemplates.Config
import ViewTemplates.Proofs.Document.RoundTrip
import ViewTemplates.Proofs.Markup.ImpliedEndTags
import ViewTemplates.Proofs.Markup.StrayEndTags

/-!
What the leniency about end tags does to a document. Leaving out the end tags that are skipped
changes nothing but which texts are one text, and writing out those that are implied changes nothing
but what is reported.
-/

namespace ViewTemplates.Document

open Markup

theorem WellFormed.exists_parse_of_tokenize {doc : Document} (wellFormed : doc.WellFormed)
    {source : String} {tokens : List Placed} (read : tokenize source = .ok tokens) :
    ∃ nodes next, doc.parse source = .ok (nodes, next, (nest tokens).2) ∧
      next.kinds nodes = (nest tokens).1 := by
  apply wellFormed.exists_parse
  rw [Markup.parse, read]

/-- Without the end tags that match no open element a text gives the nodes that it gives with them,
but that texts side by side are joined. So these are the same nodes just where no two texts have
such end tags alone between them. -/
theorem parse_withoutStrays {doc into : Document} (wellFormed : doc.WellFormed)
    (target : into.WellFormed) {source : String} {tokens : List Placed}
    (read : tokenize source = .ok tokens) :
    ∃ nodes next events roots last later, doc.parse source = .ok (nodes, next, events) ∧
      into.parse (withoutStrays source tokens) = .ok (roots, last, later) ∧
      last.kinds roots = (next.kinds nodes).joined ∧
      (last.kinds roots = next.kinds nodes ↔ Unparted source tokens) := by
  obtain ⟨placed, again, joined, same⟩ := nest_withoutStrays read
  obtain ⟨nodes, next, parsed, kinds⟩ := wellFormed.exists_parse_of_tokenize read
  obtain ⟨roots, last, reparsed, kept⟩ := target.exists_parse_of_tokenize again
  rw [← kept, ← kinds] at joined same
  exact ⟨nodes, next, _, roots, last, _, parsed, reparsed, joined, same⟩

/-- End tags that match no open element, in front of other tags and between texts, and one of a void
element. -/
def strayed : String := "</a><p>a</b>b</P></i>c</br>"

def strayedTokens : List Placed :=
  [⟨.endTag "a", 0⟩, ⟨.startTag "p" [] false, 4⟩, ⟨.text "a", 7⟩, ⟨.endTag "b", 8⟩,
    ⟨.text "b", 12⟩, ⟨.endTag "P", 13⟩, ⟨.endTag "i", 17⟩, ⟨.text "c", 21⟩, ⟨.endTag "br", 22⟩]

theorem tokenize_strayed : tokenize strayed = .ok strayedTokens := by decide +kernel

theorem parse_withoutStrays_strayed :
    tokenize strayed = .ok strayedTokens ∧ withoutStrays strayed strayedTokens = "<p>ab</P>c" ∧
      ∃ nodes next events roots last later, empty.parse strayed = .ok (nodes, next, events) ∧
        empty.parse "<p>ab</P>c" = .ok (roots, last, later) ∧
        last.kinds roots = (next.kinds nodes).joined := by
  have text : withoutStrays strayed strayedTokens = "<p>ab</P>c" := by decide +kernel
  obtain ⟨nodes, next, events, roots, last, later, parsed, again, joined, -⟩ :=
    parse_withoutStrays .empty .empty tokenize_strayed
  rw [text] at again
  exact ⟨tokenize_strayed, text, nodes, next, events, roots, last, later, parsed, again, joined⟩

/-- A stray end tag inside an interpolation. -/
def parted : String := "\x7b\x7ba</b>\x7d\x7d"

def partedTokens : List Placed :=
  [⟨.text "\x7b\x7ba", 0⟩, ⟨.endTag "b", 3⟩, ⟨.text "\x7d\x7d", 7⟩]

/-- The stray end tag leaves two texts, and none of them needs a binding; without it there is one
text, which needs one. -/
theorem parted_by_stray :
    tokenize parted = .ok partedTokens ∧ ¬Unparted parted partedTokens ∧
      withoutStrays parted partedTokens = "\x7b\x7ba\x7d\x7d" ∧
      ∃ nodes next events roots last later, empty.parse parted = .ok (nodes, next, events) ∧
        empty.parse "\x7b\x7ba\x7d\x7d" = .ok (roots, last, later) ∧
        last.kinds roots ≠ next.kinds nodes ∧
        next.kinds nodes = .cons (.text "\x7b\x7ba") .nil (.leaf (.text "\x7d\x7d")) ∧
        last.kinds roots = .leaf (.text "\x7b\x7ba\x7d\x7d") ∧
        (["\x7b\x7ba", "\x7d\x7d", "\x7b\x7ba\x7d\x7d"].map
          Config.default.interpolation.requiresBinding) = [false, false, true] := by
  have two : Markup.parse parted = .ok (.cons (.text "\x7b\x7ba") .nil
      (.leaf (.text "\x7d\x7d")), [.strayEndTag "b" 3]) := by decide +kernel
  have one : Markup.parse "\x7b\x7ba\x7d\x7d" =
      .ok (.leaf (.text "\x7b\x7ba\x7d\x7d"), []) := by decide +kernel
  obtain ⟨nodes, next, parsed, kinds⟩ := WellFormed.empty.exists_parse two
  obtain ⟨roots, last, again, whole⟩ := WellFormed.empty.exists_parse one
  have left : keptFrom .empty (lexemes parted.toList partedTokens) =
      [⟨.text "\x7b\x7ba", "\x7b\x7ba".toList⟩, ⟨.text "\x7d\x7d", "\x7d\x7d".toList⟩] := by
    decide +kernel
  refine ⟨by decide +kernel, ?_, by decide +kernel, nodes, next, _, roots, last, _, parsed, again,
    ?_, kinds, whole, by decide +kernel⟩
  · rw [Unparted, left]
    decide
  · rw [kinds, whole]
    decide

/-- With its implied end tags written out a text gives the same nodes, and no element is closed that
has no end tag: what is reported is only of end tags that match no open element. -/
theorem parse_writtenOut {doc into : Document} (wellFormed : doc.WellFormed)
    (target : into.WellFormed) {source : String} {tokens : List Placed}
    (read : tokenize source = .ok tokens) :
    ∃ nodes next events roots last later, doc.parse source = .ok (nodes, next, events) ∧
      into.parse (writtenOut source tokens) = .ok (roots, last, later) ∧
      last.kinds roots = next.kinds nodes ∧
      ∀ event ∈ later, ∃ name offset, event = .strayEndTag name offset := by
  obtain ⟨placed, again, same, strays⟩ := nest_writtenOut read
  obtain ⟨nodes, next, parsed, kinds⟩ := wellFormed.exists_parse_of_tokenize read
  obtain ⟨roots, last, reparsed, kept⟩ := target.exists_parse_of_tokenize again
  exact ⟨nodes, next, _, roots, last, _, parsed, reparsed, by rw [kept, kinds, same], strays⟩

/-- Elements of one name inside each other, closed by an end tag of another one, and some that the
text leaves open. -/
def unclosed : String := "<ul><li>a<LI>b</ul>c<b><B>d</b></x>e"

def unclosedTokens : List Placed :=
  [⟨.startTag "ul" [] false, 0⟩, ⟨.startTag "li" [] false, 4⟩, ⟨.text "a", 8⟩,
    ⟨.startTag "LI" [] false, 9⟩, ⟨.text "b", 13⟩, ⟨.endTag "ul", 14⟩, ⟨.text "c", 19⟩,
    ⟨.startTag "b" [] false, 20⟩, ⟨.startTag "B" [] false, 23⟩, ⟨.text "d", 26⟩,
    ⟨.endTag "b", 27⟩, ⟨.endTag "x", 31⟩, ⟨.text "e", 35⟩]

theorem tokenize_unclosed : tokenize unclosed = .ok unclosedTokens := by decide +kernel

theorem parse_writtenOut_unclosed :
    tokenize unclosed = .ok unclosedTokens ∧
      writtenOut unclosed unclosedTokens =
        "<ul><li>a<LI>b</LI></li></ul>c<b><B>d</b></x>e</b>" ∧
      ∃ nodes next events roots last later, empty.parse unclosed = .ok (nodes, next, events) ∧
        empty.parse "<ul><li>a<LI>b</LI></li></ul>c<b><B>d</b></x>e</b>" =
          .ok (roots, last, later) ∧
        last.kinds roots = next.kinds nodes := by
  have text : writtenOut unclosed unclosedTokens =
      "<ul><li>a<LI>b</LI></li></ul>c<b><B>d</b></x>e</b>" := by decide +kernel
  obtain ⟨nodes, next, events, roots, last, later, parsed, again, same, -⟩ :=
    parse_writtenOut .empty .empty tokenize_unclosed
  rw [text] at again
  exact ⟨tokenize_unclosed, text, nodes, next, events, roots, last, later, parsed, again, same⟩

end ViewTemplates.Document
