import Stepwise.Document.Hover
import Stepwise.Proofs.EditedLines
import Stepwise.Proofs.ReplacedTokens

/-!
# Variables put into a placeholder

A variable that is offered inside a placeholder takes the place of the placeholder: its
name is written between the delimiters, and between the dollars, that stand there. A name
is written as it was declared, so it can hold what ends a placeholder early or what closes
a quote further to the left. It is read back as the placeholder that was written exactly
when it holds neither, and then the place shows the variable again, unless dollars around
the name are taken for those of the placeholder.
-/
namespace Stepwise

namespace Step.Placeholder

/-- A name as it is written in a placeholder, with the dollars that stand there. -/
def written (p : Placeholder) (name : String) : String :=
  if p.isDollarWrapped then "$" ++ name ++ "$" else name

/-- A name that a placeholder of a line can hold: its delimiters admit the name, and no
quote that stands alone to the left of it is in the name. -/
structure Takes (p : Placeholder) (line name : String) : Prop where
  admitted : ∀ a ∈ name.toList, p.delimiter.admits a = true
  apart : ∀ e : Delimiter, e.isQuote = true →
    .plain e.opening ∈ pieces (line.toList.take (p.start - 1)) → e.opening ∉ name.toList

section
variable {p : Placeholder} {line name : String}

theorem mem_written {a : Char} (ha : a ≠ '$') :
    a ∈ (p.written name).toList ↔ a ∈ name.toList := by
  rw [written]
  split
  · simp [String.toList_append, ha]
  · exact Iff.rfl

/-- Dollars do not matter to what a placeholder can hold. -/
theorem takes_written_iff : p.Takes line (p.written name) ↔ p.Takes line name := by
  have hadmits : ∀ d : Delimiter, d.admits '$' = true := by
    intro d
    cases d <;> rfl
  have hopening : ∀ d : Delimiter, d.opening ≠ '$' := by
    intro d
    cases d <;> decide
  constructor
  · intro h
    refine ⟨fun a ha => ?_, fun e he hmem hname => ?_⟩
    · by_cases hdollar : a = '$'
      · exact hdollar ▸ hadmits _
      · exact h.admitted a ((mem_written hdollar).mpr ha)
    · exact h.apart e he hmem ((mem_written (hopening e)).mpr hname)
  · intro h
    refine ⟨fun a ha => ?_, fun e he hmem hname => ?_⟩
    · by_cases hdollar : a = '$'
      · exact hdollar ▸ hadmits _
      · exact h.admitted a ((mem_written hdollar).mp ha)
    · exact h.apart e he hmem ((mem_written (hopening e)).mp hname)

theorem toList_text : p.text.toList = (Piece.token p.delimiter p.inner.toList).text := by
  simp [text, Piece.text, String.toList_append]

theorem stop_eq : p.stop = p.start + p.text.length := by
  rw [← String.length_toList, toList_text]
  simp only [stop, Piece.text, List.cons_append, List.length_cons, List.length_append,
    List.length_nil, String.length_toList]
  omega

/-- A placeholder is known by its text and its column. -/
theorem eq_of_text {q : Placeholder} (hstart : q.start = p.start) (htext : q.text = p.text) :
    q = p := by
  obtain ⟨d, inner, start⟩ := p
  obtain ⟨e, inner', start'⟩ := q
  have hlists := congrArg String.toList htext
  rw [toList_text, toList_text] at hlists
  simp only [Piece.text, List.cons_append, List.cons.injEq] at hlists
  obtain ⟨hopening, hrest⟩ := hlists
  have hd : e = d := by
    cases e <;> cases d <;> first | rfl | cases hopening
  subst hd hstart
  rw [List.append_left_inj, String.toList_inj] at hrest
  rw [hrest]

def refill (p : Placeholder) (line name : String) : String :=
  Text.replaceColumns line p.start p.stop { p with inner := name }.text

section
variable {before after : List Piece} {column : Int}

theorem toList_refill
    (h : pieces line.toList = before ++ .token p.delimiter p.inner.toList :: after)
    (hstart : p.start = (textOf before).length + 1) :
    (p.refill line name).toList = textOf (before ++ .token p.delimiter name.toList :: after) := by
  have hline : line.toList =
      textOf before ++ (Piece.token p.delimiter p.inner.toList).text ++ textOf after := by
    rw [← textOf_pieces line.toList, h, textOf_append, List.append_assoc]
    rfl
  have hstop : p.stop = p.start + (Piece.token p.delimiter p.inner.toList).text.length := by
    rw [stop_eq, ← String.length_toList, toList_text]
  rw [refill, Text.toList_replaceColumns hline hstart hstop, toList_text, textOf_append,
    List.append_assoc]
  rfl

/-- The other text is cut as a placeholder, after the same pieces, exactly when the
placeholder can hold it. -/
theorem pieces_refill_iff
    (h : pieces line.toList = before ++ .token p.delimiter p.inner.toList :: after)
    (hstart : p.start = (textOf before).length + 1) :
    pieces (p.refill line name).toList = before ++ .token p.delimiter name.toList :: after ↔
      p.Takes line name := by
  have hold := standBefore_pieces line.toList
  rw [h, standBefore_append, List.append_nil] at hold
  obtain ⟨hbefore, ⟨hinner, hreach⟩, hafter⟩ := hold
  have hleft : pieces (line.toList.take (p.start - 1)) = before := by
    have htake : line.toList.take (p.start - 1) = textOf before := by
      rw [hstart, Nat.add_sub_cancel, ← textOf_pieces line.toList, h, textOf_append,
        List.take_left]
    rw [htake, pieces_textOf hbefore]
  rw [toList_refill h hstart, pieces_textOf_iff, standBefore_append, List.append_nil,
    standBefore_replace hinner hbefore, ← hleft]
  constructor
  · rintro ⟨hapart, ⟨hadmitted, _⟩, _⟩
    exact ⟨hadmitted, hapart⟩
  · rintro ⟨hadmitted, hapart⟩
    exact ⟨hapart, ⟨hadmitted, hreach⟩, hafter⟩

/-- An edited line has the text as a placeholder at the column where the old one was
exactly when the old one can hold it. -/
theorem mem_placeholders_refill_iff (h : placeholderAt? line column = some p) :
    (∃ t ∈ placeholders (p.refill line name),
      t.start = p.start ∧ t.text = { p with inner := name }.text) ↔ p.Takes line name := by
  obtain ⟨before, after, hsplit, hstart⟩ := placeholderAt?_eq_some h
  rw [← pieces_refill_iff hsplit hstart]
  constructor
  · rintro ⟨t, ht, htstart, httext⟩
    obtain rfl : t = { p with inner := name } := eq_of_text htstart httext
    obtain ⟨before', after', hsplit', hstart'⟩ := mem_placeholdersFrom_iff.mp ht
    have hold := standBefore_append.mp (hsplit ▸ standBefore_pieces line.toList)
    have hnew := standBefore_append.mp (hsplit' ▸ standBefore_pieces (p.refill line name).toList)
    -- the pieces in front have the same characters, and only one list of pieces has them
    have htext : textOf before' ++ textOf (.token p.delimiter name.toList :: after') =
        textOf before ++ textOf (.token p.delimiter name.toList :: after) := by
      rw [← textOf_append, ← textOf_append, ← toList_refill hsplit hstart, ← hsplit',
        textOf_pieces]
    have hlength : (textOf before').length = (textOf before).length := by
      dsimp only at hstart'
      omega
    obtain ⟨htextBefore, htextAfter⟩ := List.append_inj htext hlength
    have htextAfter' : textOf after' = textOf after := List.append_cancel_left htextAfter
    rw [hsplit', eq_of_textOf hold.1 hnew.1 htextBefore,
      eq_of_textOf hold.2.2 hnew.2.2 htextAfter']
  · intro hpieces
    refine ⟨{ p with inner := name }, mem_placeholdersFrom_iff.mpr ?_, rfl, rfl⟩
    exact ⟨before, after, hpieces, hstart.trans (Nat.add_comm ..)⟩

theorem placeholderAt?_refill (h : placeholderAt? line column = some p)
    (htakes : p.Takes line name) :
    placeholderAt? (p.refill line name) (p.start + 1) = some { p with inner := name } := by
  obtain ⟨before, after, hsplit, hstart⟩ := placeholderAt?_eq_some h
  have hpieces := (pieces_refill_iff hsplit hstart).mpr htakes
  have hcolumn : (p.start : Int) + 1 = ((textOf before).length + 2 : Nat) := by omega
  rw [hcolumn, placeholderAt?_of_pieces hpieces, ← hstart]

end
end
end Step.Placeholder

namespace Variables
variable {name : String}

theorem bareName_dollars (name : String) : bareName ("$" ++ name ++ "$") = bareName name := by
  have hlist : ("$" ++ name ++ "$").toList = '$' :: (name.toList ++ ['$']) := by
    simp [String.toList_append]
  have hdrop : ∀ cs : List Char, ((cs ++ ['$']).dropWhile (· == '$')).reverse.dropWhile (· == '$') =
      (cs.dropWhile (· == '$')).reverse.dropWhile (· == '$') := by
    intro cs
    induction cs with
    | nil => rfl
    | cons c cs ih =>
        rw [List.cons_append, List.dropWhile_cons, List.dropWhile_cons]
        split
        · exact ih
        · rw [← List.cons_append, List.reverse_append]
          rfl
  rw [bareName, bareName, hlist, List.dropWhile_cons_of_pos rfl, hdrop]

theorem bareName_eq_self (hhead : name.toList.head? ≠ some '$')
    (hlast : name.toList.getLast? ≠ some '$') : bareName name = name := by
  have hdrop : ∀ cs : List Char, cs.head? ≠ some '$' → cs.dropWhile (· == '$') = cs := by
    intro cs hcs
    cases cs with
    | nil => rfl
    | cons c cs =>
        refine List.dropWhile_cons_of_neg fun hc => hcs ?_
        rw [List.head?_cons, eq_of_beq hc]
  rw [bareName, hdrop _ hhead, hdrop _ (by rwa [List.head?_reverse]), List.reverse_reverse,
    String.ofList_toList]

/-- A declared name is found, if perhaps for an earlier declaration of it. -/
theorem exists_find? {vars : Variables} {v : Variable} (hv : v ∈ vars.all)
    (h : bareName name = v.name) :
    ∃ found, vars.find? name = some found ∧ found ∈ vars.all ∧
      Text.lowerSimple found.name = Text.lowerSimple v.name := by
  have hsome : (vars.find? name).isSome = true := by
    rw [find?, h, List.find?_isSome]
    exact ⟨v, hv, beq_self_eq_true _⟩
  obtain ⟨found, hfound⟩ := Option.isSome_iff_exists.mp hsome
  refine ⟨found, hfound, List.mem_of_find?_eq_some hfound, ?_⟩
  have hname := List.find?_some hfound
  rw [h] at hname
  exact eq_of_beq hname

end Variables

theorem CompletionItem.insertText_ofVariable (p : Step.Placeholder) (span : Span) (v : Variable) :
    (ofVariable p span v).insertText = { p with inner := p.written v.name }.text := rfl

/-- Inside a placeholder every variable is offered, each in place of the placeholder. -/
theorem Configuration.mem_completions_iff {c : Configuration} {line : String}
    {number column : Int} {p : Step.Placeholder} {item : CompletionItem}
    (hp : Step.placeholderAt? line column = some p) :
    item ∈ c.completions line number column ↔
      ∃ v ∈ c.vars.all, item = .ofVariable p (.onLine number p.start p.stop) v := by
  have hcursor : Cursor.on c.lexicon line column = .inPlaceholder p := by
    rw [Cursor.on, hp]
  rw [completions, hcursor]
  simp only [List.mem_map]
  exact exists_congr fun v => and_congr_right fun _ => eq_comm

/-- Accepting a variable that is offered in a placeholder puts a placeholder with the name of
the variable there exactly when the old one can hold the name: its delimiters admit it, and no
quote that stands alone to the left is in it. The place then shows a variable of that name,
if no dollar is at the ends of the name. -/
theorem Configuration.completions_refill_placeholder {c : Configuration} {line : String}
    {number column : Int} {p : Step.Placeholder} {item : CompletionItem}
    (hp : Step.placeholderAt? line column = some p)
    (hitem : item ∈ c.completions line number column) :
    ∃ v ∈ c.vars.all, item = .ofVariable p (.onLine number p.start p.stop) v ∧
      ((∃ t ∈ Step.placeholders (item.edit.rewrite line),
        t.start = p.start ∧ t.text = item.insertText) ↔ p.Takes line v.name) ∧
      (p.Takes line v.name → v.name.toList.head? ≠ some '$' → v.name.toList.getLast? ≠ some '$' →
        ∀ (d : Document) (n : Int), d.line n = item.edit.rewrite line →
          ∃ found ∈ c.vars.all, Text.lowerSimple found.name = Text.lowerSimple v.name ∧
            d.hover? c n (p.start + 1) =
              some ⟨.onLine n p.start (p.start + item.insertText.length), [found.description]⟩) := by
  obtain ⟨v, hv, rfl⟩ := (mem_completions_iff hp).mp hitem
  have hrewrite : (CompletionItem.ofVariable p (.onLine number p.start p.stop) v).edit.rewrite line =
      p.refill line (p.written v.name) := rfl
  rw [hrewrite]
  refine ⟨v, hv, rfl, ?_, fun htakes hhead hlast d n hline => ?_⟩
  · rw [CompletionItem.insertText_ofVariable, Step.Placeholder.mem_placeholders_refill_iff hp,
      Step.Placeholder.takes_written_iff]
  have hbare : Variables.bareName (p.written v.name) = v.name := by
    rw [Step.Placeholder.written]
    split
    · rw [Variables.bareName_dollars, Variables.bareName_eq_self hhead hlast]
    · exact Variables.bareName_eq_self hhead hlast
  obtain ⟨found, hfound, hmem, hname⟩ := Variables.exists_find? hv hbare
  refine ⟨found, hmem, hname, ?_⟩
  have hplace := Step.Placeholder.placeholderAt?_refill hp
    (Step.Placeholder.takes_written_iff.mpr htakes)
  rw [Document.hover?, hline, Hover.ofVariable?]
  rw [hplace, Option.bind_some, hfound, Option.map_some, Option.some_or,
    Step.Placeholder.stop_eq, Int.natCast_add]
  rfl

/-- A name with a quote that is not one of its placeholder, after a quoted token that is
closed. -/
theorem Configuration.completions_refill_placeholder_apostrophe :
    let c := Configuration.initial.withVariables ⟨[⟨"it's", "it's", "4"⟩]⟩
    let item : CompletionItem := .ofVariable ⟨.double, "$y$", 5⟩ (.onLine 1 5 10)
      ⟨"it's", "it's", "4"⟩
    item ∈ c.completions "'x' \"$y$\"" 1 6 ∧
      item.edit.rewrite "'x' \"$y$\"" = "'x' \"$it's$\"" ∧
      (∃ t ∈ Step.placeholders (item.edit.rewrite "'x' \"$y$\""),
        t.start = 5 ∧ t.text = "\"$it's$\"") ∧
      Document.hover? c ⟨"inmemory:a", 1, 1, ["'x' \"$it's$\""]⟩ 1 6 =
        some ⟨.onLine 1 5 13, ["\x60it's\x60 = 4"]⟩ := by
  intro c item
  have hp : Step.placeholderAt? "'x' \"$y$\"" 6 = some ⟨.double, "$y$", 5⟩ := by
    decide +kernel
  have hitem : item ∈ c.completions "'x' \"$y$\"" 1 6 := by
    decide +kernel
  have hedited : item.edit.rewrite "'x' \"$y$\"" = "'x' \"$it's$\"" := by
    decide +kernel
  obtain ⟨v, hv, heq, htoken, hhover⟩ := completions_refill_placeholder hp hitem
  obtain rfl : v = ⟨"it's", "it's", "4"⟩ := List.mem_singleton.mp hv
  have htakes : (⟨.double, "$y$", 5⟩ : Step.Placeholder).Takes "'x' \"$y$\"" "it's" := by
    have hadmitted : "it's".toList.all Step.Delimiter.double.admits = true := by
      decide +kernel
    refine ⟨List.all_eq_true.mp hadmitted, fun e he hmem => ?_⟩
    cases e <;> revert hmem <;> decide +kernel
  obtain ⟨found, hfound, -, hshown⟩ := hhover htakes (by decide) (by decide)
    ⟨"inmemory:a", 1, 1, ["'x' \"$it's$\""]⟩ 1 (hedited ▸ rfl)
  obtain rfl : found = ⟨"it's", "it's", "4"⟩ := List.mem_singleton.mp hfound
  exact ⟨hitem, hedited, htoken.mpr htakes, hshown.trans (by decide +kernel)⟩

/-- A name with a double quote, put between double quotes, is not read back. -/
theorem Configuration.completions_unread_double_quote :
    let c := Configuration.initial.withVariables ⟨[⟨"a\"b", "a\"b", "1"⟩]⟩
    Step.placeholderAt? "\"x\"" 2 = some ⟨.double, "x", 1⟩ ∧
      ∃ item ∈ c.completions "\"x\"" 1 2, item.edit.rewrite "\"x\"" = "\"a\"b\"" ∧
        (¬∃ t ∈ Step.placeholders "\"a\"b\"", t.start = 1 ∧ t.text = item.insertText) ∧
        Document.hover? c ⟨"inmemory:a", 1, 1, ["\"a\"b\""]⟩ 1 2 = none := by
  decide +kernel

end Stepwise
