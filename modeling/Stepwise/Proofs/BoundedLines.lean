import Stepwise.Document.LineClass
import Stepwise.Proofs.BoundedKeywords
import Stepwise.Proofs.TypedSteps

/-!
# Lines are read within bounds

What a single line means is found by cutting it: the words after its keyword, its
placeholders by the bytes at which they start and end, a placeholder without its
delimiters. A step is read at the position that the index of shapes gives. As before
an outer `none` stands for a position out of bounds and `some none` for a line without
keyword or step.

A keyword that was found has no more words than the line, the placeholders of a line
are parts of it, and the index of shapes belongs to the steps in use.
-/
namespace Stepwise

namespace Step

theorem upToQuote_text {q : Char} {cs inner rest : List Char}
    (h : upToQuote q cs = some (inner, rest)) : cs = inner ++ q :: rest := by
  induction cs generalizing inner rest with
  | nil => cases h
  | cons c cs ih =>
      unfold upToQuote at h
      split at h
      · rename_i hc
        cases h
        rw [beq_iff_eq.mp hc]
        rfl
      · obtain ⟨⟨i, r⟩, hr, heq⟩ := Option.map_eq_some_iff.mp h
        cases heq
        rw [ih hr]
        rfl

theorem upToAngle_text {cs inner rest : List Char}
    (h : upToAngle cs = some (inner, rest)) : cs = inner ++ '>' :: rest := by
  induction cs generalizing inner rest with
  | nil => cases h
  | cons c cs ih =>
      unfold upToAngle at h
      split at h
      · cases h
      · split at h
        · rename_i i r hr
          cases h
          rw [ih hr]
          rfl
        · split at h
          · rename_i hc
            cases h
            rw [beq_iff_eq.mp hc]
            rfl
          · cases h

/-- A token is its delimiters and the text between them. -/
theorem tokenAt?_text {cs inner rest : List Char} {d : Delimiter}
    (h : tokenAt? cs = some (d, inner, rest)) : cs = (Piece.token d inner).text ++ rest := by
  cases cs with
  | nil => cases h
  | cons c cs =>
      simp only [tokenAt?] at h
      split at h
      · rename_i hc
        obtain ⟨r, hr, heq⟩ := Option.map_eq_some_iff.mp h
        cases heq
        rw [beq_iff_eq.mp hc, upToQuote_text hr]
        simp [Piece.text, Delimiter.opening, Delimiter.closing]
      · split at h
        · rename_i hc
          obtain ⟨r, hr, heq⟩ := Option.map_eq_some_iff.mp h
          cases heq
          rw [beq_iff_eq.mp hc, upToQuote_text hr]
          simp [Piece.text, Delimiter.opening, Delimiter.closing]
        · split at h
          · rename_i hc
            obtain ⟨r, hr, heq⟩ := Option.map_eq_some_iff.mp h
            cases heq
            rw [beq_iff_eq.mp hc, upToAngle_text hr]
            simp [Piece.text, Delimiter.opening, Delimiter.closing]
          · cases h

/-- The pieces of a line make it up. -/
theorem pieces_flatMap_text (cs : List Char) : (pieces cs).flatMap Piece.text = cs := by
  fun_induction pieces cs with
  | case1 => rfl
  | case2 c cs d inner rest h ih =>
      rw [List.flatMap_cons, ih]
      exact (tokenAt?_text h).symm
  | case3 c cs h ih =>
      rw [List.flatMap_cons, ih]
      rfl

end Step

namespace Bounded

def stepLine (l : Lexicon) (line : String) : Option (Option StepLine) := do
  let words := Text.words line
  match ← findKeyword l words with
  | none => return none
  | some k => return some ⟨k, Text.joinWords (← slice? words k.size words.length)⟩

def isNumber (word : String) : Option Bool :=
  let digits := word.toList.dropWhile fun c => c == '+' || c == '-'
  if digits.isEmpty then some false
  else do
    let first ← at? digits 0
    return first.isDigit &&
      (Number.parseFloat? (String.ofList (Step.isNumber.pointForComma digits))).isSome

def wordShape (word : String) : Option String := do
  let marked ← if word == Step.marker then some true else isNumber word
  return if marked then Step.marker else Text.fold word

/-- The shape of a step text, written over its words. -/
def shape (text : String) : Option String := do
  let words := Text.words (Step.replacePlaceholders text (" " ++ Step.marker ++ " "))
  return Text.joinWords (← mapEach? wordShape "" words)

def findStep (c : Configuration) (text : String) : Option (Option StepDefinition) := do
  match c.shapes.position? (← shape text) with
  | none => return none
  | some i => return some (← at? c.steps.all i)

def invokedStep (c : Configuration) (line : String) : Option (Option StepDefinition) := do
  match ← stepLine c.lexicon line with
  | none => return none
  | some s => if s.text.isEmpty then return none else findStep c s.text

def isMetatag (c : Configuration) (line : String) : Option Bool :=
  let words := Text.words line
  if words.length ≠ 1 then some false
  else do
    let word ← at? words 0
    return c.metatags.any fun tag => Text.foldEqual (Configuration.dropColon word) tag

def isImportLine (c : Configuration) (line : String) : Option Bool :=
  let words := Text.words line
  if words.isEmpty then some false
  else do
    let word ← at? words 0
    return c.directives.any fun directive => Text.foldEqual word directive

def opensWithNearMiss (c : Configuration) (line : String) : Option Bool :=
  let words := Text.words line
  if words.isEmpty then some false
  else do return (← nearMiss c.lexicon (← at? words 0)).isSome

/-- What stands for a character where there is none. -/
def replacement : Char := '\ufffd'

/-- A token without its delimiters, cut by their bytes. -/
def inner (token : List Char) : Option (List Char) :=
  let opening := (token.head?.getD replacement).utf8Size
  let closing := (token.getLast?.getD replacement).utf8Size
  if byteCount token < opening + closing then some []
  else sliceBytes? token opening (byteCount token - closing)

/-- Whether a token has a dollar just inside both delimiters. -/
def isDollarWrapped (token : List Char) : Option Bool :=
  if token.length < 5 then some false
  else do return (← at? token 1) == '$' && (← at? token (token.length - 2)) == '$'

def delimiterOf (token : List Char) : Step.Delimiter :=
  if token.head? = some '"' then .double
  else if token.head? = some '\'' then .single
  else .angle

/-- The bytes at which the tokens of a line start and end. -/
def tokenBytes (offset : Nat) : List Step.Piece → List (Nat × Nat)
  | [] => []
  | .token d inner :: rest =>
    let stop := offset + byteCount (Step.Piece.token d inner).text
    (offset, stop) :: tokenBytes stop rest
  | .plain c :: rest => tokenBytes (offset + byteCount [c]) rest

/-- The placeholder between two bytes of a line, and whether it is wrapped in dollars. -/
def placeholder (line : List Char) (bytes : Nat × Nat) : Option (Step.Placeholder × Bool) := do
  let token ← sliceBytes? line bytes.1 bytes.2
  let before ← sliceBytes? line 0 bytes.1
  let name ← inner token
  let wrapped ← isDollarWrapped token
  return (⟨delimiterOf token, String.ofList name, before.length + 1⟩, wrapped)

def placeholders (line : String) : Option (List (Step.Placeholder × Bool)) :=
  (tokenBytes 0 (Step.pieces line.toList)).mapM (placeholder line.toList)

/-- A keyword that opens a line has no more words than the line. -/
theorem size_le_of_find? {l : Lexicon} (hl : l.Declared) {words : List String} {k : Keyword}
    (h : l.find? words = some k) : k.size ≤ words.length := by
  obtain ⟨e, he, rfl⟩ := Option.map_eq_some_iff.mp h
  obtain ⟨hmem, htest⟩ := longest?_spec he
  have hfits := hl.fits_step hmem
  have hle := (List.isPrefixOf_iff_prefix.mp htest).length_le
  rw [lowered_length hfits, input_length hfits] at hle
  omega

theorem stepLine_eq {l : Lexicon} (hl : l.Declared) (line : String) :
    stepLine l line = some (StepLine.of? l line) := by
  unfold stepLine StepLine.of?
  dsimp only
  rw [findKeyword_eq hl]
  cases hk : l.find? (Text.words line) with
  | none => rfl
  | some k =>
      simp only [Option.bind_eq_bind, Option.bind_some, slice?_drop (size_le_of_find? hl hk)]
      rfl

theorem isNumber_eq (word : String) : isNumber word = some (Step.isNumber word) := by
  unfold isNumber Step.isNumber
  dsimp only
  cases word.toList.dropWhile fun c => c == '+' || c == '-' <;> rfl

theorem shape_eq (text : String) : shape text = some (Step.shape text) := by
  have hword : ∀ w, wordShape w = some (Step.wordShape w) := by
    intro w
    unfold wordShape Step.wordShape
    rw [isNumber_eq]
    cases hm : w == Step.marker <;> rfl
  unfold shape
  dsimp only
  rw [mapEach?_eq hword]
  rfl

/-- The index of shapes gives positions of steps. -/
theorem getElem?_of_position? {c : Configuration} (hc : c.Reachable) {text : String} {i : Nat}
    (h : c.shapes.position? text = some i) : ∃ s, c.steps.all[i]? = some s := by
  rw [hc.shapes_eq, ShapeIndex.position?, ShapeIndex.ofSteps, ShapeIndex.lookup_ofKeys,
    List.lookup_nil, Option.none_or, List.findIdx?_map] at h
  obtain ⟨j, hj, rfl⟩ := Option.map_eq_some_iff.mp h
  obtain ⟨hlt, -⟩ := List.findIdx?_eq_some_iff_getElem.mp hj
  exact ⟨_, List.getElem?_eq_getElem hlt⟩

theorem findStep_eq {c : Configuration} (hc : c.Reachable) (text : String) :
    findStep c text = some (c.findStep? text) := by
  unfold findStep Configuration.findStep?
  rw [shape_eq]
  simp only [Option.bind_eq_bind, Option.bind_some]
  cases hp : c.shapes.position? (Step.shape text) with
  | none => rfl
  | some i =>
      obtain ⟨s, hs⟩ := getElem?_of_position? hc hp
      simp only [at?_natCast, hs, Option.bind_some]
      rfl

theorem invokedStep_eq {c : Configuration} (hc : c.Reachable) (hl : c.lexicon.Declared)
    (line : String) : invokedStep c line = some (c.invokedStep? line) := by
  unfold invokedStep Configuration.invokedStep?
  rw [stepLine_eq hl]
  simp only [Option.bind_eq_bind, Option.bind_some]
  cases StepLine.of? c.lexicon line with
  | none => rfl
  | some s =>
      dsimp only
      split
      · rfl
      · exact findStep_eq hc s.text

theorem isMetatag_eq (c : Configuration) (line : String) :
    isMetatag c line = some (c.isMetatag line) := by
  unfold isMetatag Configuration.isMetatag
  match Text.words line with
  | [] => rfl
  | [word] => rfl
  | _ :: _ :: _ => simp

theorem isImportLine_eq (c : Configuration) (line : String) :
    isImportLine c line = some (c.isImportLine line) := by
  unfold isImportLine Configuration.isImportLine
  cases Text.words line <;> rfl

theorem opensWithNearMiss_eq (c : Configuration) (line : String) :
    opensWithNearMiss c line = some (c.opensWithNearMiss line) := by
  unfold opensWithNearMiss Configuration.opensWithNearMiss
  cases Text.words line with
  | nil => rfl
  | cons word rest =>
      simp only [List.isEmpty_cons, Bool.false_eq_true, if_false, at?_zero_cons, nearMiss_eq,
        Option.bind_eq_bind, Option.bind_some]
      rfl

section
variable (d : Step.Delimiter) (name : List Char)

theorem inner_token : inner (Step.Piece.token d name).text = some name := by
  have hclosing : (Step.Piece.token d name).text.getLast?.getD replacement = d.closing := by
    rw [Step.Piece.text, List.getLast?_concat, Option.getD_some]
  have hbytes : byteCount (Step.Piece.token d name).text =
      byteCount [d.opening] + byteCount name + d.closing.utf8Size := by
    simp [Step.Piece.text]
    omega
  have hstop : (byteCount (Step.Piece.token d name).text - d.closing.utf8Size : Int) =
      (byteCount [d.opening] + byteCount name : Nat) := by
    omega
  have hcut := sliceBytes?_middle [d.opening] name [d.closing]
  unfold inner
  dsimp only
  rw [hclosing, hstop, if_neg (by rw [hbytes]; simp [Step.Piece.text])]
  simpa [Step.Piece.text] using hcut

/-- The characters just inside the delimiters are the ends of the name. -/
theorem isDollarWrapped_token (start : Nat) : isDollarWrapped (Step.Piece.token d name).text =
    some (Step.Placeholder.isDollarWrapped ⟨d, String.ofList name, start⟩) := by
  have hlength : (Step.Piece.token d name).text.length = name.length + 2 := by
    simp [Step.Piece.text]
  unfold isDollarWrapped Step.Placeholder.isDollarWrapped
  rw [hlength]
  by_cases hshort : name.length + 2 < 5
  · have hthree : ¬3 ≤ name.length := by omega
    simp [hshort, hthree]
  · have hthree : 3 ≤ name.length := by omega
    have hne : name ≠ [] := by
      rintro rfl
      cases hthree
    have hfirst : at? (Step.Piece.token d name).text 1 = some (name.head hne) := by
      obtain ⟨a, rest, rfl⟩ := List.exists_cons_of_ne_nil hne
      rfl
    have hlast : at? (Step.Piece.token d name).text ((name.length + 2 : Nat) - 2) =
        some (name.getLast hne) := by
      obtain ⟨front, z, rfl⟩ : ∃ front z, name = front ++ [z] :=
        ⟨_, _, (List.dropLast_append_getLast hne).symm⟩
      have hposition : ((front ++ [z]).length + 2 : Nat) - (2 : Int) =
          (front.length + 1 : Nat) := by
        rw [List.length_append, List.length_singleton]
        omega
      rw [hposition, at?_natCast, List.getLast_concat]
      simp [Step.Piece.text]
    rw [if_neg hshort, hfirst, hlast]
    simp [hthree, List.head?_eq_some_head hne, List.getLast?_eq_some_getLast hne]

theorem delimiterOf_token : delimiterOf (Step.Piece.token d name).text = d := by
  cases d <;> simp [delimiterOf, Step.Piece.text, Step.Delimiter.opening]

end

/-- The placeholders of a line are cut out of it within bounds. -/
theorem placeholders_eq (line : String) :
    placeholders line = some ((Step.placeholders line).map fun p => (p, p.isDollarWrapped)) := by
  -- the pieces that are left start after the bytes and the characters of those before
  have hloop : ∀ (parts : List Step.Piece) (before : List Char),
      before ++ parts.flatMap Step.Piece.text = line.toList →
      (tokenBytes (byteCount before) parts).mapM (placeholder line.toList) =
        some ((Step.placeholdersFrom (before.length + 1) parts).map fun p =>
          (p, p.isDollarWrapped)) := by
    intro parts
    induction parts with
    | nil => exact fun _ _ => rfl
    | cons part rest ih =>
        intro before hline
        rw [List.flatMap_cons, ← List.append_assoc] at hline
        have hrest := ih (before ++ part.text) hline
        rw [byteCount_append, List.length_append] at hrest
        cases part with
        | plain c => exact hrest
        | token d name =>
            have hlength : before.length + (Step.Piece.token d name).text.length + 1 =
                before.length + 1 + name.length + 2 := by
              simp [Step.Piece.text]
              omega
            have htoken := sliceBytes?_middle before (Step.Piece.token d name).text
              (rest.flatMap Step.Piece.text)
            have hbefore := sliceBytes?_front before
              ((Step.Piece.token d name).text ++ rest.flatMap Step.Piece.text)
            rw [hline] at htoken
            rw [← List.append_assoc, hline] at hbefore
            have hfirst : placeholder line.toList (byteCount before,
                byteCount before + byteCount (Step.Piece.token d name).text) =
                some (⟨d, String.ofList name, before.length + 1⟩,
                  Step.Placeholder.isDollarWrapped ⟨d, String.ofList name, before.length + 1⟩) := by
              unfold placeholder
              simp only [htoken, hbefore, inner_token, delimiterOf_token,
                isDollarWrapped_token d name (before.length + 1), Option.bind_eq_bind,
                Option.bind_some]
              rfl
            rw [tokenBytes, List.mapM_cons, hfirst, hrest, hlength]
            rfl
  exact hloop (Step.pieces line.toList) [] (Step.pieces_flatMap_text line.toList)

end Bounded
end Stepwise
