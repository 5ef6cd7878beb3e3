import Stepwise.Proofs.BoundedLines
import Stepwise.Proofs.CapitalLetters
import Stepwise.Proofs.EditedLines

/-!
# Capitalized keywords

A completion after a keyword and a fix of a mistyped keyword write the keyword with its
first letter in upper case. The line they make is a step line again, with a keyword that is
at least as long, whenever the first letter keeps its capital: the words of the capitalized
keyword then have the lower case of its own words, and that is all that is compared.

Without that condition this is false. In Greek a capital carries no accent, so the keyword
with an accent on its first letter is not found under its capitalized form.
-/
namespace Stepwise

/-- Whether the first letter of a keyword keeps its capital in the first word. -/
def Keyword.keepsCapital (k : Keyword) : Bool :=
  match k.words.map String.toList with
  | (c :: cs) :: _ => Text.Casing.keepsCapital k.tag.tailoring c cs
  | _ => false

theorem Text.toList_joinWords_cons (w : String) (ws : List String) :
    (joinWords (w :: ws)).toList = w.toList ++ (joinWords ("" :: ws)).toList := by
  rw [toList_joinWords, toList_joinWords]
  cases ws with
  | nil => simp
  | cons v vs => simp [List.intercalate_cons_cons]

theorem Text.not_mem_joinWords {ws : List String} (h : ∀ w ∈ ws, IsWord w.toList) {b : Char}
    (hb : isBlank b = true) (hspace : b ≠ ' ') : b ∉ (joinWords ws).toList := by
  induction ws with
  | nil => simp [joinWords]
  | cons w ws ih =>
      have hw : b ∉ w.toList := by
        intro hmem
        have hword := (h w List.mem_cons_self).2 b hmem
        rw [hb] at hword
        cases hword
      cases ws with
      | nil => simpa [toList_joinWords] using hw
      | cons v vs =>
          have hrest := ih fun u hu => h u (List.mem_cons_of_mem w hu)
          rw [toList_joinWords] at hrest ⊢
          simp only [List.map_cons, List.intercalate_cons_cons, List.mem_append,
            List.mem_singleton, not_or]
          exact ⟨⟨hw, hspace⟩, hrest⟩

/-- A capitalized keyword is words joined by spaces, and they have the lower case of the
keyword. -/
theorem Keyword.exists_capitalized {k : Keyword} (hwords : ∀ w ∈ k.words, Text.IsWord w.toList)
    (h : k.keepsCapital = true) :
    ∃ ws, (∀ w ∈ ws, Text.IsWord w.toList) ∧ k.capitalized = Text.joinWords ws ∧
      lowerWords k.tag ws = k.lowered := by
  obtain ⟨w, ws, hk⟩ : ∃ w ws, k.words = w :: ws := by
    cases hk : k.words with
    | nil => simp [keepsCapital, hk] at h
    | cons w ws => exact ⟨w, ws, rfl⟩
  have hw := hwords w (hk ▸ List.mem_cons_self)
  obtain ⟨c, cs, hcs⟩ := List.exists_cons_of_ne_nil hw.1
  simp only [keepsCapital, hk, List.map_cons, hcs] at h
  have hc : Text.isBlank c = false := hw.2 c (hcs ▸ List.mem_cons_self)
  obtain ⟨u, hupper, hu, hlower⟩ := Text.Casing.exists_capital h hc
  refine ⟨String.ofList (u :: cs) :: ws, ?_, ?_, ?_⟩
  · intro v hv
    rcases List.mem_cons.mp hv with rfl | hv
    · rw [String.toList_ofList]
      refine ⟨List.cons_ne_nil u cs, fun a ha => ?_⟩
      rcases List.mem_cons.mp ha with rfl | ha
      · exact hu
      · exact hw.2 a (hcs ▸ List.mem_cons_of_mem c ha)
    · exact hwords v (hk ▸ List.mem_cons_of_mem w hv)
  · rw [capitalized, text, hk, Text.toList_joinWords_cons, hcs, ← String.toList_inj,
      Text.toList_joinWords_cons (String.ofList (u :: cs)), String.toList_ofList]
    simp only [List.cons_append, hupper, String.toList_ofList, List.nil_append]
  · have hword : String.ofList (c :: cs) = w := by
      rw [← hcs, String.ofList_toList]
    rw [lowered, hk, lowerWords, lowerWords, List.map_cons, List.map_cons, hlower, hword]

/-! ## What is found -/

namespace Lexicon

section
variable {test : LexiconEntry → Bool} {entries : List LexiconEntry} {e : LexiconEntry} {n : Nat}

theorem foldl_prefer_ge {best : Option LexiconEntry}
    (h : ∃ b, best = some b ∧ n ≤ b.keyword.size) :
    ∃ found, entries.foldl (Bounded.prefer test) best = some found ∧ n ≤ found.keyword.size := by
  induction entries generalizing best with
  | nil => exact h
  | cons e entries ih =>
      obtain ⟨b, rfl, hb⟩ := h
      refine ih ?_
      unfold Bounded.prefer
      dsimp only
      split
      · rename_i hlonger
        simp only [Bool.and_eq_true, decide_eq_true_eq] at hlonger
        exact ⟨e, rfl, by omega⟩
      · exact ⟨b, rfl, hb⟩

/-- What is found is as long as anything that passes the test. -/
theorem longest?_ge (test : LexiconEntry → Bool) (he : e ∈ entries) (ht : test e = true) :
    ∃ found, longest? test entries = some found ∧ e.keyword.size ≤ found.keyword.size := by
  -- at its own turn the entry is taken, or what is held is as long
  obtain ⟨before, after, rfl⟩ := List.append_of_mem he
  have hfold : longest? test (before ++ e :: after) =
      after.foldl (Bounded.prefer test) (Bounded.prefer test (longest? test before) e) := by
    rw [longest?, List.foldl_append, List.foldl_cons]
    rfl
  rw [hfold]
  refine foldl_prefer_ge ?_
  cases longest? test before with
  | none => exact ⟨e, by simp [Bounded.prefer, ht], Nat.le_refl _⟩
  | some b =>
      by_cases hlonger : b.keyword.size < e.keyword.size
      · exact ⟨e, by simp [Bounded.prefer, ht, hlonger], Nat.le_refl _⟩
      · exact ⟨b, by simp [Bounded.prefer, hlonger], Nat.not_lt.mp hlonger⟩

end

/-- Words that begin with the lower case of a step keyword, as its language has it, give a
keyword that is as long. -/
theorem find?_of_lowered {l : Lexicon} (hl : l.Declared) {k : Keyword} (hk : k ∈ l.stepKeywords)
    {ws : List String} (h : Keyword.lowerWords k.tag ws = k.lowered) (more : List String) :
    ∃ found, l.find? (ws ++ more) = some found ∧ k.size ≤ found.size := by
  obtain ⟨e, he, rfl⟩ := List.mem_map.mp hk
  have hfits := hl.fits_step he
  have hlength : ws.length = e.keyword.size := by
    have := congrArg List.length h
    rwa [Keyword.lowerWords, List.length_map, Keyword.lowered, Keyword.lowerWords,
      List.length_map] at this
  -- no more words are lowered than the lexicon is wide, and that is enough for the entry
  have htake : (ws ++ more).take l.width = ws ++ more.take (l.width - ws.length) := by
    rw [List.take_append, List.take_of_length_le (hlength ▸ hfits.size_le)]
  have haccepts : e.lowered.isPrefixOf
      (((l.lowerInput (ws ++ more)).lookup e.keyword.tag).getD []) = true := by
    rw [Bounded.input_lookup hfits, htake, hfits.lowered, ← h, List.isPrefixOf_iff_prefix,
      Keyword.lowerWords, Keyword.lowerWords, List.map_append]
    exact List.prefix_append _ _
  obtain ⟨found, hfound, hsize⟩ := longest?_ge (fun e => e.lowered.isPrefixOf
    (((l.lowerInput (ws ++ more)).lookup e.keyword.tag).getD [])) he haccepts
  refine ⟨found.keyword, ?_, hsize⟩
  rw [find?]
  simp only [hfound, Option.map_some]

theorem Declared.trim_ne_empty {l : Lexicon} (hl : l.Declared) {k : Keyword} {line : String}
    (h : l.find? (Text.words line) = some k) : Text.trim line ≠ "" := by
  intro hempty
  have hsize := Bounded.size_le_of_find? hl h
  rw [(Text.words_eq_nil_iff line).mpr hempty, List.length_nil, Nat.le_zero] at hsize
  obtain ⟨e, he, rfl⟩ := Option.map_eq_some_iff.mp h
  have hfits := hl.fits_step (Bounded.longest?_spec he).1
  exact hfits.words_ne_nil (List.length_eq_zero_iff.mp hsize)

end Lexicon

/-! ## The lines that are made -/

theorem StepLine.of?_of_words {l : Lexicon} {line : String} {n : Nat}
    (h : ∃ found, l.find? (Text.words line) = some found ∧ n ≤ found.size) :
    ∃ step, StepLine.of? l line = some step ∧ n ≤ step.keyword.size := by
  obtain ⟨found, hfound, hsize⟩ := h
  exact ⟨⟨found, _⟩, by rw [StepLine.of?, hfound]; rfl, hsize⟩

/-- The first line of a text with a line feed in it has the words before the line feed. -/
theorem Text.splitLines_head {before after : List Char} (h : '\n' ∉ before) :
    ∃ first rest, splitLines (String.ofList (before ++ '\n' :: after)) = first :: rest ∧
      words first = words (String.ofList before) := by
  have hfree : ∀ a ∈ before, (a == '\n') = false := by
    intro a ha
    rw [beq_eq_false_iff_ne]
    exact fun he => h (he ▸ ha)
  -- a carriage return at the end of a line is white space
  have hcut : ∀ piece : List Char, wordsOf (if piece.getLast? == some '\r' then piece.dropLast
      else piece) = wordsOf piece := by
    intro piece
    split
    · rename_i hlast
      obtain ⟨front, rfl⟩ := List.getLast?_eq_some_iff.mp (eq_of_beq hlast)
      rw [List.dropLast_concat, wordsOf_append_right]
      simp only [List.mem_singleton, forall_eq]
      decide
    · rfl
  obtain ⟨piece, pieces, hpieces⟩ := List.exists_cons_of_ne_nil
    (List.splitOnP_ne_nil (· == '\n') after)
  have hne : (String.ofList (before ++ '\n' :: after)).isEmpty = false := by
    rw [← Bool.not_eq_true, String.isEmpty_iff, ← String.toList_inj, String.toList_ofList]
    simp
  rw [splitLines, hne, if_neg Bool.false_ne_true, String.toList_ofList,
    List.splitOnP_append_cons_of_forall_mem hfree _ (beq_self_eq_true '\n'), hpieces]
  have hwords : ∀ rest : List (List Char), ∃ first lines,
      ((before :: rest).map fun piece => String.ofList
        (if piece.getLast? == some '\r' then piece.dropLast else piece)) = first :: lines ∧
      words first = words (String.ofList before) := by
    intro rest
    refine ⟨_, _, rfl, ?_⟩
    rw [words, words, String.toList_ofList, String.toList_ofList, hcut]
  dsimp only
  split
  · rw [List.dropLast_cons_of_ne_nil (List.cons_ne_nil piece pieces)]
    exact hwords _
  · exact hwords _

/-- The first line that is made when content with a line feed somewhere after it is put into
a line. -/
theorem Text.splitLines_withContent {line content : String} (hline : '\n' ∉ line.toList)
    (hcontent : '\n' ∉ content.toList) (text : String) :
    ∃ first rest continuation,
      splitLines (withContent line (content ++ " " ++ text ++ "\n")) = first :: rest ∧
        words first = words (content ++ " " ++ continuation) := by
  have hmem : '\n' ∈ text.toList ++ ['\n'] := List.mem_append_right _ List.mem_cons_self
  obtain ⟨front, back, hsplit, hfront⟩ := List.eq_append_cons_of_mem hmem
  have hbefore : '\n' ∉ indentation line.toList ++ (content.toList ++ ' ' :: front) := by
    have hindentation : '\n' ∉ indentation line.toList := by
      intro hin
      rw [← indentation_append_trimStart line.toList] at hline
      exact hline (List.mem_append_left _ hin)
    simp [hindentation, hcontent, hfront]
  have hedited : withContent line (content ++ " " ++ text ++ "\n") = String.ofList
      ((indentation line.toList ++ (content.toList ++ ' ' :: front)) ++
        '\n' :: (back ++ trailing line.toList)) := by
    have htext : (content ++ " " ++ text ++ "\n").toList =
        content.toList ++ ' ' :: (front ++ '\n' :: back) := by
      rw [← hsplit]
      simp
    rw [← String.toList_inj, toList_withContent, htext, String.toList_ofList]
    simp only [List.append_assoc, List.cons_append]
  obtain ⟨first, rest, hlines, hfirst⟩ := splitLines_head hbefore
  refine ⟨first, rest, String.ofList front, hedited ▸ hlines, ?_⟩
  rw [hfirst, words, words, String.toList_ofList,
    wordsOf_append_left fun _ ha => isBlank_of_mem_indentation ha]
  simp

namespace Configuration
variable {c : Configuration} {k : Keyword} {line : String}

theorem exists_rewrite_of_afterKeyword (hl : c.lexicon.Declared) {number column : Int}
    {item : CompletionItem} (hcursor : Cursor.on c.lexicon line column = .afterKeyword k)
    (hitem : item ∈ c.completions line number column) :
    ∃ text, item.edit.rewrite line =
      Text.withContent line (k.capitalized ++ " " ++ text ++ "\n") := by
  have hfind : c.lexicon.find? (Text.words line) = some k := by
    unfold Cursor.on at hcursor
    split at hcursor
    · cases hcursor
    · dsimp only at hcursor
      split at hcursor
      · cases hcursor
      · split at hcursor
        · rename_i hfound
          cases hcursor
          exact hfound
        · cases hcursor
  have hcontent := hl.trim_ne_empty hfind
  rw [completions, hcursor] at hitem
  obtain ⟨s, -, rfl⟩ := List.mem_map.mp hitem
  exact ⟨s.insertText, Edit.rewrite_ofContent hcontent number column _⟩

theorem exists_rewrite_of_nearMissFix? {word : String} {ws : List String} {m : Marker} {fix : Fix}
    (hline : Text.words line = word :: ws) (hmiss : c.lexicon.nearMiss? word = some k)
    (hfix : c.nearMissFix? line m = some fix) :
    ∃ e, fix.edits = [e] ∧ Text.words (e.rewrite line) = Text.words k.capitalized ++ ws := by
  rw [nearMissFix?] at hfix
  simp only [hline, hmiss, Option.map_some, Option.some.injEq] at hfix
  subst hfix
  exact ⟨_, rfl, Text.words_replace_first hline k.capitalized⟩

/-- A keyword whose first letter keeps its capital is found under its capitalized form,
whatever follows, in a phrase that is at least as long. So the line that is made by a
completion after the keyword is a step line, and so is the line that is made by a fix that
puts the keyword in place of a mistyped word. -/
theorem capitalized_keyword_recognized (hl : c.lexicon.Declared)
    (hk : k ∈ c.lexicon.stepKeywords) (hkeeps : k.keepsCapital = true) :
    (∀ continuation, ∃ found,
      c.lexicon.find? (Text.words (k.capitalized ++ " " ++ continuation)) = some found ∧
        k.size ≤ found.size) ∧
    (∀ line number column item, '\n' ∉ line.toList →
      Cursor.on c.lexicon line column = .afterKeyword k →
      item ∈ c.completions line number column →
        ∃ first rest step, Text.splitLines (item.edit.rewrite line) = first :: rest ∧
          StepLine.of? c.lexicon first = some step ∧ k.size ≤ step.keyword.size) ∧
    (∀ line word ws m fix, Text.words line = word :: ws → c.lexicon.nearMiss? word = some k →
      c.nearMissFix? line m = some fix →
        ∃ e step, fix.edits = [e] ∧ StepLine.of? c.lexicon (e.rewrite line) = some step ∧
          k.size ≤ step.keyword.size) := by
  obtain ⟨capital, hwords, hjoined, hlower⟩ :=
    Keyword.exists_capitalized (hl.isWord hk) hkeeps
  have hcapital : Text.words k.capitalized = capital := by
    rw [hjoined, Text.words_joinWords hwords]
  have hfind := Lexicon.find?_of_lowered hl hk hlower
  have hcontinued : ∀ continuation, ∃ found,
      c.lexicon.find? (Text.words (k.capitalized ++ " " ++ continuation)) = some found ∧
        k.size ≤ found.size := by
    intro continuation
    rw [Text.words_append_space, hcapital]
    exact hfind _
  refine ⟨hcontinued, fun line number column item hfeed hcursor hitem => ?_,
    fun line word ws m fix hline hmiss hfix => ?_⟩
  · obtain ⟨text, hrewrite⟩ := exists_rewrite_of_afterKeyword hl hcursor hitem
    have hkeyword : '\n' ∉ k.capitalized.toList := by
      rw [hjoined]
      exact Text.not_mem_joinWords hwords (by decide) (by decide)
    obtain ⟨first, rest, continuation, hlines, hfirst⟩ :=
      Text.splitLines_withContent hfeed hkeyword text
    obtain ⟨step, hstep, hsize⟩ := StepLine.of?_of_words (hfirst ▸ hcontinued continuation)
    exact ⟨first, rest, step, hrewrite ▸ hlines, hstep, hsize⟩
  · obtain ⟨e, hedits, hrewrite⟩ := exists_rewrite_of_nearMissFix? hline hmiss hfix
    obtain ⟨step, hstep, hsize⟩ := StepLine.of?_of_words (hrewrite ▸ hcapital ▸ hfind ws)
    exact ⟨e, step, hedits, hstep, hsize⟩

/-- A Russian keyword. -/
def kogda : Keyword := ⟨["когда"], .undetermined, .step⟩

def waiting : StepDefinition :=
  { StepDefinition.blank with label := "l", insertText := "я жду", documentation := "d" }

def russian : Configuration :=
  (initial.withLexicon (.ofPhrases [⟨"", .step, ["когда"]⟩])).withSteps (.ofList [waiting])

/-- The keyword after a completion and in place of a mistyped word. -/
theorem capitalized_keyword_recognized_russian :
    let item : CompletionItem := .ofStep "Когда" "Когда " ⟨1, 1, 1, 6⟩ waiting
    let m : Marker := ⟨Severity.error, "Syntax error", ⟨1, 1, 1, 8⟩⟩
    kogda.capitalized = "Когда" ∧
      (∃ found, russian.lexicon.find? (Text.words "Когда я жду") = some found ∧
        1 ≤ found.size) ∧
      item ∈ russian.completions "когда " 1 7 ∧
      item.edit.rewrite "когда " = "Когда я жду\n " ∧
      (∃ first rest step, Text.splitLines "Когда я жду\n " = first :: rest ∧
        StepLine.of? russian.lexicon first = some step ∧ 1 ≤ step.keyword.size) ∧
      ∃ fix e step, russian.nearMissFix? "каогда я" m = some fix ∧ fix.edits = [e] ∧
        StepLine.of? russian.lexicon (e.rewrite "каогда я") = some step ∧
          1 ≤ step.keyword.size := by
  intro item m
  have hl : russian.lexicon.Declared := ⟨[⟨"", .step, ["когда"]⟩], rfl⟩
  have hk : kogda ∈ russian.lexicon.stepKeywords := by decide +kernel
  have hkeeps : kogda.keepsCapital = true := by decide +kernel
  have hcapital : kogda.capitalized = "Когда" := by decide +kernel
  have hcursor : Cursor.on russian.lexicon "когда " 7 = .afterKeyword kogda := by decide +kernel
  have hitem : item ∈ russian.completions "когда " 1 7 := by decide +kernel
  have hedited : item.edit.rewrite "когда " = "Когда я жду\n " := by decide +kernel
  have hmiss : russian.lexicon.nearMiss? "каогда" = some kogda := by decide +kernel
  obtain ⟨hfound, hcompleted, hfixed⟩ := capitalized_keyword_recognized hl hk hkeeps
  have hfirst := hfound "я жду"
  rw [hcapital] at hfirst
  have hwords : Text.words "каогда я" = ["каогда", "я"] := by decide +kernel
  have hsome : (russian.nearMissFix? "каогда я" m).isSome = true := by decide +kernel
  obtain ⟨fix, hfix⟩ := Option.isSome_iff_exists.mp hsome
  obtain ⟨e, step, hedits, hstep, hsize⟩ := hfixed _ _ _ m fix hwords hmiss hfix
  exact ⟨hcapital, hfirst, hitem, hedited,
    hedited ▸ hcompleted "когда " 1 7 item (by decide) hcursor hitem,
    fix, e, step, hfix, hedits, hstep, hsize⟩

end Configuration

/-! ## A capital without its accent -/

theorem Text.mem_words_of_between {text w : String} (n : Nat) (hw : words w = [w])
    (h : (' ' :: (w.toList ++ [' '])).isPrefixOf (text.toList.drop n) = true) :
    w ∈ words text := by
  obtain ⟨rest, hrest⟩ := List.isPrefixOf_iff_prefix.mp h
  have hsplit : text.toList = text.toList.take n ++ ' ' :: (w.toList ++ ' ' :: rest) := by
    conv => lhs; rw [← List.take_append_drop n text.toList, ← hrest]
    simp
  generalize text.toList.take n = before at hsplit
  have hwords : words text = words (String.ofList before) ++
      (words w ++ words (String.ofList rest)) := by
    simp only [words, hsplit, wordsOf_append_blank (show isBlank ' ' = true by decide),
      List.map_append, String.toList_ofList]
  rw [hwords, hw]
  exact List.mem_append_right _ (List.mem_append_left _ List.mem_cons_self)

def Language.greek : Tag := ⟨"el", "", "", [], []⟩

theorem Language.parse_greek : parse "el" = greek := by
  have hcode : twoLetterCodes.contains "el" = true := by
    rw [List.contains_iff_mem, twoLetterCodes]
    refine Text.mem_words_of_between 107 (by decide +kernel) ?_
    simp only [String.toList_append]
    decide +kernel
  have hlanguage : language? "el" = some "el" := by
    have hletters : "el".toList = ['e', 'l'] := by decide
    simp only [language?, hletters, hcode, if_true]
  have hsubtags : subtags? "el" = some ["el"] := by decide +kernel
  have hwhole : wholeTags.lookup ("-".intercalate ["el"]) = none := by decide +kernel
  have hpreferred : preferred greek = greek := by decide +kernel
  have hread : ofSubtags? ["el"] = some (preferred greek) := by
    simp [ofSubtags?, hlanguage, takeExtended, takeScript, takeRegion, takeVariants,
      groupExtensions, sortVariants, greek]
  rw [parse, hsubtags]
  simp only [hwhole, hread, hpreferred, Option.getD_some]

theorem Lexicon.ofPhrases_singleton {p : Phrase} {k : Keyword} (h : p.keyword? = some k)
    (hkind : k.kind = .step) :
    ofPhrases [p] = ⟨[⟨k, k.lowered⟩], [], [k.tag], k.size⟩ := by
  have htags : [k.tag].eraseDups = [k.tag] := rfl
  simp [ofPhrases, h, hkind, Kind.isHeader, htags]

/-- A Greek keyword with an accent on its first letter. -/
def otan : Keyword := ⟨["Όταν"], Language.greek, .step⟩

/-- The Greek keyword loses its accent and is not found. -/
theorem Lexicon.capitalized_keyword_unrecognized :
    let l := Lexicon.ofPhrases [⟨"el", .step, ["Όταν"]⟩]
    otan ∈ l.stepKeywords ∧ l.find? (Text.words (otan.text ++ " x")) = some otan ∧
      otan.capitalized = "Οταν" ∧
      l.find? (Text.words (otan.capitalized ++ " " ++ "x")) = none := by
  intro l
  have hkeyword : (⟨"el", .step, ["Όταν"]⟩ : Phrase).keyword? = some otan := by
    have hwords : Phrase.plainWords ⟨"el", .step, ["Όταν"]⟩ = ["Όταν"] := by decide +kernel
    rw [Phrase.keyword?, hwords]
    simp [Language.parse_greek, otan]
  have hl : l = ⟨[⟨otan, otan.lowered⟩], [], [Language.greek], 1⟩ :=
    ofPhrases_singleton hkeyword rfl
  rw [hl]
  decide +kernel

end Stepwise
