import Stepwise.Proofs.JsonReading
import Stepwise.Yaml.Plain
import Stepwise.Yaml.Quoted

/-!
# Scalars of a rendered value

The text of a value is one line without blanks between its tokens. A string of it is
read as a quoted scalar: every escape stands for the character it was written for,
and spaces stay as they are, since there is no line break to fold them with. Numbers
and words are read as plain scalars up to the comma or bracket after them.
-/
namespace Stepwise.Yaml

open Json (Escaped escapeChar escaped_escapeChar quote)

def place (column : Nat) : Mark :=
  ⟨column, 0, column⟩

theorem skip_cons (c : Char) (rest : List Char) (k : Nat) :
    (Input.mk (c :: rest) (place k)).skip = ⟨rest, place (k + 1)⟩ := rfl

theorem skipMany_append (passed rest : List Char) (k : Nat) :
    Input.skipMany passed.length ⟨passed ++ rest, place k⟩ =
      ⟨rest, place (k + passed.length)⟩ := by
  induction passed generalizing k with
  | nil => rfl
  | cons c passed ih =>
      rw [List.length_cons, Input.skipMany, List.cons_append, skip_cons, ih, Nat.add_right_comm,
        Nat.add_assoc]

theorem isAtMarker_of_column {k : Nat} (hk : 0 < k) (rest : List Char) (c : Char) :
    (Input.mk rest (place k)).isAtMarker c = false := by
  have hne : (k == 0) = false := by simp; omega
  simp [Input.isAtMarker, place, hne]

theorem isAtDocumentMark_of_column {k : Nat} (hk : 0 < k) (rest : List Char) :
    (Input.mk rest (place k)).isAtDocumentMark = false := by
  rw [Input.isAtDocumentMark, isAtMarker_of_column hk, isAtMarker_of_column hk]
  rfl

/-! ## Quoted scalars -/

theorem isBlank_of_raw {c : Char} (hs : c ≠ ' ') (h0 : 0x20 ≤ c.toNat) : isBlank c = false := by
  simp only [isBlank, Bool.or_eq_false_iff, beq_eq_false_iff_ne]
  refine ⟨hs, ?_⟩
  rintro rfl
  exact absurd h0 (by decide)

theorem isBreak_of_raw {c : Char} (hn : c ≠ '\u0085') (h0 : 0x20 ≤ c.toNat)
    (hu : Json.isUnsafeInPage c = false) : isBreak c = false := by
  simp only [Json.isUnsafeInPage, Bool.or_eq_false_iff, beq_eq_false_iff_ne] at hu
  simp only [isBreak, Bool.or_eq_false_iff, beq_eq_false_iff_ne]
  refine ⟨⟨⟨⟨?_, ?_⟩, hn⟩, hu.1.2⟩, hu.2⟩
  · rintro rfl
    exact absurd h0 (by decide)
  · rintro rfl
    exact absurd h0 (by decide)

theorem readQuotedWord_backslash {e c : Char} {tail rest : List Char} {k n : Nat}
    (he : isBreak e = false) (h : readEscape ⟨e :: tail, place (k + 1)⟩ = .ok (c, ⟨rest, place n⟩))
    (start fuel : Nat) (acc : List Char) :
    readQuotedWord false start (fuel + 1) acc ⟨'\\' :: e :: tail, place k⟩ =
      readQuotedWord false start fuel (c :: acc) ⟨rest, place n⟩ := by
  have hblank : isBlank '\\' = false := rfl
  have hbreak : isBreak '\\' = false := rfl
  simp [readQuotedWord, Input.next?, Input.ahead?, he, skip_cons, h, hblank, hbreak]

theorem readEscape_code {c : Char} (h : c.toNat < 0xD800) (tail : List Char) (k : Nat) :
    readEscape ⟨'u' :: (Text.hexDigits 4 c.toNat ++ tail), place k⟩ =
      .ok (c, ⟨tail, place (k + 5)⟩) := by
  have hdigits : escapeDigits? 'u' = some 4 := rfl
  have hchar : charOfNumber? c.toNat = some c := by
    have hlow : ¬(0xD800 ≤ c.toNat) := by omega
    have hhigh : ¬(0x10FFFF < c.toNat) := by omega
    simp [charOfNumber?, hlow, hhigh]
  have htake : (Text.hexDigits 4 c.toNat ++ tail).take 4 = Text.hexDigits 4 c.toNat := rfl
  have hlength : ((Text.hexDigits 4 c.toNat).length == 4) = true := rfl
  have hskip := skipMany_append ('u' :: Text.hexDigits 4 c.toNat) tail k
  rw [readEscape]
  simp only [Input.next?, List.head?_cons, hdigits, skip_cons, htake, hlength, if_true,
    Json.hexNumber?_hexDigits (Nat.lt_trans h (by decide)), hchar]
  exact congrArg (fun i => Except.ok (c, i)) hskip

/-- Escapes are read as the characters they stand for. -/
theorem readQuotedWord_escaped {c : Char} {written : List Char} (h : Escaped c written)
    (hs : c ≠ ' ') (hn : c ≠ '\u0085') (start fuel : Nat) (acc tail : List Char) (k : Nat) :
    readQuotedWord false start (fuel + 1) acc ⟨written ++ tail, place k⟩ =
      readQuotedWord false start fuel (c :: acc) ⟨tail, place (k + written.length)⟩ := by
  cases h with
  | @pair e he =>
      have hall : ∀ m ∈ [('"', '"'), ('\\', '\\'), ('n', '\n'), ('r', '\r'), ('t', '\t')],
          isBreak m.1 = false ∧ escapeDigits? m.1 = none ∧ escapeChar? m.1 = some m.2 := by
        decide
      obtain ⟨hbreak, hdigits, hchar⟩ := hall (e, c) he
      simp only at hbreak hdigits hchar
      refine readQuotedWord_backslash hbreak ?_ start fuel acc
      simp only [readEscape, Input.next?, List.head?_cons, hdigits, hchar, skip_cons]
      rfl
  | code hlt => exact readQuotedWord_backslash rfl (readEscape_code hlt tail (k + 1)) start fuel acc
  | char h0 hq hb hu =>
      have hblank := isBlank_of_raw hs h0
      have hbreak := isBreak_of_raw hn h0 hu
      simp [readQuotedWord, Input.next?, hblank, hbreak, hq, hb, skip_cons]

/-- A character as it stands in a string: not a space, and on the same line. -/
def IsWordChar (c : Char) : Prop :=
  c ≠ ' ' ∧ c ≠ '\u0085'

/-- A word is read up to the space or the quote after it. -/
theorem readQuotedWord_word {word : List Char} (hw : ∀ c ∈ word, IsWordChar c) {d : Char}
    (hd : d = ' ' ∨ d = '"') (start fuel : Nat) (acc tail : List Char) (k : Nat)
    (hf : word.length < fuel) :
    readQuotedWord false start fuel acc ⟨word.flatMap escapeChar ++ d :: tail, place k⟩ =
      .ok ⟨word.reverse ++ acc, false,
        ⟨d :: tail, place (k + (word.flatMap escapeChar).length)⟩⟩ := by
  induction word generalizing fuel acc k with
  | nil =>
      obtain ⟨fuel, rfl⟩ : ∃ n, fuel = n + 1 := ⟨fuel - 1, by simp at hf; omega⟩
      rcases hd with rfl | rfl
      · simp [readQuotedWord, Input.next?, isBlank]
      · have hblank : isBlank '"' = false := rfl
        have hbreak : isBreak '"' = false := rfl
        simp [readQuotedWord, Input.next?, hblank, hbreak]
  | cons c word ih =>
      obtain ⟨fuel, rfl⟩ : ∃ n, fuel = n + 1 := ⟨fuel - 1, by omega⟩
      rw [List.forall_mem_cons] at hw
      rw [List.flatMap_cons, List.append_assoc,
        readQuotedWord_escaped (escaped_escapeChar c) hw.1.1 hw.1.2,
        ih hw.2 fuel (c :: acc) _ (by simp at hf; omega), List.length_append, Nat.add_assoc,
        List.reverse_cons, List.append_assoc, List.singleton_append]

/-- Spaces are read up to the next character. -/
theorem readGap_spaces (n fuel : Nat) (hf : n < fuel) {d : Char} (hd : isBlank d = false)
    (hb : isBreak d = false) (blanks tail : List Char) (k : Nat) :
    readGap 0 fuel ⟨blanks, [], [], false⟩ ⟨List.replicate n ' ' ++ d :: tail, place k⟩ =
      .ok (⟨blanks ++ List.replicate n ' ', [], [], false⟩, ⟨d :: tail, place (k + n)⟩) := by
  induction n generalizing fuel blanks k with
  | zero =>
      obtain ⟨fuel, rfl⟩ : ∃ n, fuel = n + 1 := ⟨fuel - 1, by omega⟩
      simp [readGap, Input.next?, hd, hb]
  | succ n ih =>
      obtain ⟨fuel, rfl⟩ : ∃ n, fuel = n + 1 := ⟨fuel - 1, by omega⟩
      have hblank : isBlank ' ' = true := rfl
      rw [List.replicate_succ, List.cons_append, readGap]
      simp only [Input.next?, List.head?_cons, hblank, if_true, Bool.false_and, Bool.false_eq_true,
        if_false, Gap.addBlank, skip_cons]
      rw [ih fuel (by omega), List.append_assoc, List.singleton_append, Nat.add_assoc,
        Nat.add_comm 1 n]

theorem escaped_head {c : Char} {written : List Char} (h : Escaped c written) (hc : IsWordChar c) :
    ∃ d ds, written = d :: ds ∧ isBlank d = false ∧ isBreak d = false := by
  cases h with
  | pair _ => exact ⟨_, _, rfl, rfl, rfl⟩
  | code _ => exact ⟨_, _, rfl, rfl, rfl⟩
  | char h0 hq hb hu => exact ⟨c, [], rfl, isBlank_of_raw hc.1 h0, isBreak_of_raw hc.2 h0 hu⟩

theorem escaped_length_pos {c : Char} {written : List Char} (h : Escaped c written) :
    0 < written.length := by
  cases h with
  | pair _ => exact Nat.succ_pos _
  | code _ => exact Nat.succ_pos _
  | char _ _ _ _ => exact Nat.succ_pos _

theorem length_le_flatMap (cs : List Char) : cs.length ≤ (cs.flatMap escapeChar).length := by
  induction cs with
  | nil => exact Nat.le_refl 0
  | cons c cs ih =>
      have hc := escaped_length_pos (escaped_escapeChar c)
      rw [List.flatMap_cons, List.length_append, List.length_cons]
      omega

theorem flatMap_replicate (n : Nat) :
    (List.replicate n ' ').flatMap escapeChar = List.replicate n ' ' := by
  induction n with
  | zero => rfl
  | succ n ih =>
      rw [List.replicate_succ, List.flatMap_cons, ih]
      rfl

/-- A text is a word, or a word with spaces and the rest of the text after it. -/
theorem exists_word (cs : List Char) : (∀ c ∈ cs, c ≠ ' ') ∨
    ∃ word n rest, cs = word ++ (List.replicate (n + 1) ' ' ++ rest) ∧ (∀ c ∈ word, c ≠ ' ') ∧
      ∀ c more, rest = c :: more → c ≠ ' ' := by
  induction cs with
  | nil => exact .inl nofun
  | cons c cs ih =>
      by_cases hc : c = ' '
      · subst hc
        right
        rcases ih with hall | ⟨word, n, rest, rfl, hword, hrest⟩
        · refine ⟨[], 0, cs, rfl, nofun, ?_⟩
          rintro d more rfl
          exact hall d List.mem_cons_self
        · cases word with
          | nil =>
              refine ⟨[], n + 1, rest, ?_, nofun, hrest⟩
              rw [List.nil_append, List.nil_append, List.replicate_succ (n := n + 1),
                List.cons_append]
          | cons d word =>
              refine ⟨[], 0, _, rfl, nofun, ?_⟩
              intro e more he
              obtain ⟨rfl, -⟩ := List.cons.inj he
              exact hword d List.mem_cons_self
      · rcases ih with hall | ⟨word, n, rest, rfl, hword, hrest⟩
        · exact .inl (List.forall_mem_cons.mpr ⟨hc, hall⟩)
        · exact .inr ⟨c :: word, n, rest, rfl, List.forall_mem_cons.mpr ⟨hc, hword⟩, hrest⟩

/-- A text that is written in quotes is read back, its spaces as they are. -/
theorem readQuotedFrom_text {cs : List Char} (hn : ∀ c ∈ cs, c ≠ '\u0085') (start fuel : Nat)
    (acc tail : List Char) {k : Nat} (hk : 0 < k) (hf : cs.length < fuel) :
    readQuotedFrom false start fuel acc ⟨cs.flatMap escapeChar ++ '"' :: tail, place k⟩ =
      .ok (acc.reverse ++ cs, ⟨tail, place (k + (cs.flatMap escapeChar).length + 1)⟩) := by
  induction hlen : cs.length using Nat.strong_induction_on generalizing cs fuel acc k with
  | _ len ih =>
      subst hlen
      obtain ⟨fuel, rfl⟩ : ∃ n, fuel = n + 1 := ⟨fuel - 1, by omega⟩
      have hsome : ∀ rest : List Char, (rest ++ '"' :: tail).isEmpty = false := by
        intro rest
        cases rest <;> rfl
      rw [readQuotedFrom, isAtDocumentMark_of_column hk]
      simp only [Bool.false_eq_true, if_false, hsome]
      rcases exists_word cs with hall | ⟨word, n, rest, rfl, hword, hrest⟩
      · have hchars : ∀ c ∈ cs, IsWordChar c := fun c hc => ⟨hall c hc, hn c hc⟩
        have hle := length_le_flatMap cs
        rw [readQuotedWord_word hchars (.inr rfl) _ _ _ _ _ (by
          rw [List.length_append, List.length_cons]
          omega)]
        simp [Input.isAt, skip_cons]
      · have hchars : ∀ c ∈ word, IsWordChar c := fun c hc =>
          ⟨hword c hc, hn c (List.mem_append_left _ hc)⟩
        have hrestn : ∀ c ∈ rest, c ≠ '\u0085' := fun c hc =>
          hn c (List.mem_append_right _ (List.mem_append_right _ hc))
        have hle := length_le_flatMap word
        simp only [List.length_append, List.length_replicate] at hf ih
        -- What follows the spaces: the start of the next word, or the closing quote.
        obtain ⟨d, ds, hnext, hdblank, hdbreak⟩ : ∃ d ds,
            rest.flatMap escapeChar ++ '"' :: tail = d :: ds ∧ isBlank d = false ∧
              isBreak d = false := by
          cases rest with
          | nil => exact ⟨'"', tail, rfl, rfl, rfl⟩
          | cons c more =>
              obtain ⟨d, ds, hd, hb⟩ := escaped_head (escaped_escapeChar c)
                ⟨hrest c more rfl, hrestn c List.mem_cons_self⟩
              exact ⟨d, _, by rw [List.flatMap_cons, hd, List.cons_append, List.cons_append], hb⟩
        have hnext' := ih rest.length (by omega) hrestn fuel
          (List.replicate (n + 1) ' ' ++ (word.reverse ++ acc))
          (k := k + (word.flatMap escapeChar).length + (n + 1)) (by omega) (by omega) rfl
        have hgap := readGap_spaces (n + 1)
          (List.replicate (n + 1) ' ' ++ d :: ds).length (by simp) hdblank hdbreak [] ds
          (k + (word.flatMap escapeChar).length)
        have hspaces : List.replicate (n + 1) ' ' ++ d :: ds =
            ' ' :: (List.replicate n ' ' ++ d :: ds) := rfl
        have hread := readQuotedWord_word hchars (d := ' ') (.inl rfl) start
          (word.flatMap escapeChar ++ (List.replicate (n + 1) ' ' ++ d :: ds)).length acc
          (List.replicate n ' ' ++ d :: ds) k (by
            rw [List.length_append, hspaces, List.length_cons]
            omega)
        rw [← hspaces] at hread
        have hquote : (Input.mk (List.replicate (n + 1) ' ' ++ d :: ds)
            (place (k + (word.flatMap escapeChar).length))).isAt '"' = false := rfl
        rw [List.flatMap_append, List.flatMap_append, flatMap_replicate, List.append_assoc,
          List.append_assoc, hnext, hread]
        rw [hnext] at hnext'
        simp only [Bool.false_eq_true, if_false, hquote, Bool.and_false]
        rw [Gap.none, hgap]
        simp only [Gap.text, Bool.false_eq_true, if_false, List.nil_append, List.reverse_replicate]
        rw [hnext']
        simp [Nat.add_assoc]

theorem quote_toList (text : String) :
    (quote text).toList = '"' :: (text.toList.flatMap escapeChar ++ ['"']) := by
  rw [quote, String.toList_ofList, List.cons_append]

theorem readQuoted_quote {text : String} (hn : '\u0085' ∉ text.toList) (tail : List Char) (k : Nat) :
    readQuoted false ⟨(quote text).toList ++ tail, place k⟩ =
      .ok (text, ⟨tail, place (k + (quote text).toList.length)⟩) := by
  have hle := length_le_flatMap text.toList
  have hchars : ∀ c ∈ text.toList, c ≠ '\u0085' := by
    rintro c hc rfl
    exact hn hc
  rw [quote_toList, List.cons_append, List.append_assoc, List.singleton_append, readQuoted,
    skip_cons, readQuotedFrom_text hchars _ _ _ _ (Nat.succ_pos k) (by
      rw [List.length_cons, List.length_append, List.length_cons]
      omega)]
  simp [Except.map, Nat.add_assoc, Nat.add_comm 1]

/-! ## Plain scalars -/

/-- A character that neither ends a plain scalar nor starts a comment. -/
def isPlainChar (c : Char) : Bool :=
  !(isBlank c || isBreak c || c == ':' || endsFlowPlain c || c == '#')

/-- What follows a value: the end of the text, a comma or a closing bracket. -/
def Closes (rest : List Char) : Prop :=
  ∀ c cs, rest = c :: cs → c = ',' ∨ c = ']' ∨ c = '\x7d'

theorem endsPlain_of_closes {rest : List Char} (h : Closes rest) (mark : Mark) :
    endsPlain true ⟨rest, mark⟩ = true := by
  cases rest with
  | nil => rfl
  | cons c cs => rcases h c cs rfl with rfl | rfl | rfl <;> rfl

theorem readPlainWord_append {word rest : List Char} (hw : ∀ c ∈ word, isPlainChar c = true)
    (hr : Closes rest) (fuel : Nat) (acc : List Char) (k : Nat) (hf : word.length ≤ fuel) :
    readPlainWord true fuel acc ⟨word ++ rest, place k⟩ =
      (word.reverse ++ acc, ⟨rest, place (k + word.length)⟩) := by
  induction word generalizing fuel acc k with
  | nil =>
      cases fuel with
      | zero => rfl
      | succ fuel =>
          rw [List.nil_append, readPlainWord, endsPlain_of_closes hr, if_pos rfl]
          rfl
  | cons c word ih =>
      obtain ⟨fuel, rfl⟩ : ∃ n, fuel = n + 1 := ⟨fuel - 1, by simp at hf; omega⟩
      rw [List.forall_mem_cons] at hw
      have hc := hw.1
      simp only [isPlainChar, Bool.not_eq_true', Bool.or_eq_false_iff] at hc
      have hgo : endsPlain true ⟨c :: (word ++ rest), place k⟩ = false := by
        simp [endsPlain, Input.next?, hc]
      rw [List.cons_append, readPlainWord, hgo]
      simp only [Bool.false_eq_true, if_false, Input.next?, List.head?_cons, skip_cons]
      rw [ih hw.2 fuel (c :: acc) (k + 1) (by simpa using hf)]
      simp [Nat.add_assoc, Nat.add_comm 1]

theorem readPlain_append {word rest : List Char} (hne : word ≠ [])
    (hw : ∀ c ∈ word, isPlainChar c = true) (hr : Closes rest) (indent : Nat) {k : Nat}
    (hk : 0 < k) :
    readPlain true indent ⟨word ++ rest, place k⟩ =
      .ok (String.ofList word, false, ⟨rest, place (k + word.length)⟩) := by
  cases word with
  | nil => exact absurd rfl hne
  | cons c word =>
      have hc := hw c List.mem_cons_self
      simp only [isPlainChar, Bool.not_eq_true', Bool.or_eq_false_iff, beq_eq_false_iff_ne] at hc
      have hhash : (Input.mk (c :: word ++ rest) (place k)).isAt '#' = false := by
        simp [Input.isAt, hc.2]
      have hgo : endsPlain true ⟨c :: word ++ rest, place k⟩ = false := by
        simp [endsPlain, Input.next?, hc]
      rw [readPlain, readPlainFrom, isAtDocumentMark_of_column hk, hhash, hgo]
      simp only [Bool.false_eq_true, if_false, Bool.or_self]
      rw [readPlainWord_append hw hr _ _ _ (by simp)]
      cases rest with
      | nil => simp [Input.next?, Except.map, Gap.none, Gap.text]
      | cons d ds =>
          have hd : isBlank d = false ∧ isBreak d = false := by
            rcases hr d ds rfl with rfl | rfl | rfl <;> exact ⟨rfl, rfl⟩
          simp [Input.next?, Except.map, Gap.none, Gap.text, hd]

end Stepwise.Yaml
