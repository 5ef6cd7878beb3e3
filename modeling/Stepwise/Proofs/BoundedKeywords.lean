import Stepwise.Keyword.NearMiss
import Stepwise.Proofs.BoundedAccess
import Stepwise.Proofs.DeclaredLexicon

/-!
# Keywords are found within bounds

The search for a keyword walks over the entries of a lexicon and keeps the position of
the best one so far. It cuts the line to the width of the lexicon, compares words by
position, and a heading is cut before its last word. Each of these is a reading of its
own here, in which a position out of bounds gives no result, and each is equal to the
search as it is defined. In this module and the next ones a reading has the name of the
definition it is equal to.

What keeps the positions in bounds is that the lexicon is declared: an entry has words
and no more of them than the lexicon is wide, and its language is listed.
-/
namespace Stepwise.Bounded

def lowerWords (tag : Language.Tag) (words : List String) : Option (List String) :=
  mapEach? (fun w => some (Text.lower tag.tailoring w)) "" words

/-- The leading words of a line in the lower case of each language. -/
def lowerInput (l : Lexicon) (words : List String) :
    Option (List (Language.Tag × List String)) :=
  l.tags.mapM fun tag => do
    let leading ← slice? words 0 (min words.length l.width : Nat)
    let lowered ← lowerWords tag leading
    return (tag, lowered)

/-- Whether words begin with others, compared one position after the other. -/
def beginsWith (words start : List String) : Option Bool :=
  if words.length < start.length then some false
  else (List.range start.length).allM fun (i : Nat) => do
    return (← at? words i) == (← at? start i)

/-- Whether the best entry so far is at least as long as another. -/
def outdoes (entries : List LexiconEntry) (best : Int) (e : LexiconEntry) : Option Bool :=
  if best < 0 then some false
  else (at? entries best).map fun b => decide (e.lowered.length ≤ b.lowered.length)

/-- One round of the search: the position of the best entry so far. -/
def searchRound (entries : List LexiconEntry) (limit : Nat) (accepts : LexiconEntry → Option Bool)
    (best : Int) (e : LexiconEntry × Nat) : Option Int :=
  if limit < e.1.lowered.length then some best
  else do
    let passed ← outdoes entries best e.1
    let better ← if passed then some false else accepts e.1
    return if better then (e.2 : Int) else best

/-- The keyword of the longest entry that a test accepts. Entries of more words than the
limit are passed over. -/
def search (entries : List LexiconEntry) (limit : Nat) (accepts : LexiconEntry → Option Bool) :
    Option (Option Keyword) := do
  let best ← entries.zipIdx.foldlM (searchRound entries limit accepts) (-1)
  if best < 0 then return none
  else return some (← at? entries best).keyword

def findKeyword (l : Lexicon) (words : List String) : Option (Option Keyword) :=
  if words.isEmpty || l.steps.isEmpty then some none
  else do
    let input ← lowerInput l words
    search l.steps words.length fun e =>
      beginsWith ((input.lookup e.keyword.tag).getD []) e.lowered

/-- Whether lower-case words open with a heading: its words before the last, and the last
one with a colon. -/
def opensWith (heading input : List String) : Option Bool := do
  -- a heading without words would put this before the first position
  let last : Int := heading.length - 1
  if ← beginsWith (← slice? input 0 last) (← slice? heading 0 last) then
    return Text.startsWith ((← at? heading last) ++ ":") (← at? input last)
  else return false

def findHeader (l : Lexicon) (line : String) : Option (Option Keyword) :=
  let words := Text.words line
  if l.headers.isEmpty || words.isEmpty then some none
  else do
    let input ← lowerInput l words
    search l.headers words.length fun e =>
      opensWith e.lowered ((input.lookup e.keyword.tag).getD [])

/-- The text of a keyword with its first letter in upper case. The rest is cut off after
the bytes of the first letter. -/
def capitalized (k : Keyword) : Option String :=
  let text := k.text.toList
  if text.isEmpty then some ""
  else do
    let first ← at? text 0
    let rest ← sliceBytes? text first.utf8Size (byteCount text)
    return String.ofList (Text.Casing.upperChar k.tag.tailoring first ++ rest)

def missDistance (folded : String) (k : Keyword) : Option (Option Nat) :=
  if k.size ≠ 1 then some none
  else do
    let d := Diff.distance folded (Text.fold (← at? k.words 0))
    return if d ≤ Lexicon.nearMissLimit && 2 * d < folded.length then some d else none

def missRound (folded : String) (best : Option (Keyword × Nat)) (k : Keyword) :
    Option (Option (Keyword × Nat)) := do
  match ← missDistance folded k with
  | none => return best
  | some d =>
    match best with
    | some (_, d') => return if d < d' then some (k, d) else best
    | none => return some (k, d)

def nearMiss (l : Lexicon) (word : String) : Option (Option Keyword) := do
  return (← l.stepKeywords.foldlM (missRound (Text.fold word)) none).map (·.1)

theorem lowerWords_eq (tag : Language.Tag) (words : List String) :
    lowerWords tag words = some (Keyword.lowerWords tag words) :=
  mapEach?_eq (fun _ => rfl) "" words

theorem lowerInput_eq (l : Lexicon) (words : List String) :
    lowerInput l words = some (l.lowerInput words) := by
  refine mapM_eq_some_map fun tag _ => ?_
  have hleading : words.take (min words.length l.width) = words.take l.width := by
    rw [Nat.min_comm, ← List.take_eq_take_min]
  rw [slice?_take (Nat.min_le_left _ _), hleading]
  simp only [Option.bind_eq_bind, Option.bind_some, lowerWords_eq]
  rfl

theorem beginsWith_eq (words start : List String) :
    beginsWith words start = some (start.isPrefixOf words) := by
  unfold beginsWith
  split
  · rename_i h
    have hnot : ¬start <+: words := fun hp => Nat.not_le.mpr h hp.length_le
    rw [← List.isPrefixOf_iff_prefix, Bool.not_eq_true] at hnot
    rw [hnot]
  · rename_i h
    have hle := Nat.not_lt.mp h
    have hround : ∀ i ∈ List.range start.length,
        (do return (← at? words i) == (← at? start i) : Option Bool) =
          some (words[i]? == start[i]?) := by
      intro i hi
      have hi := List.mem_range.mp hi
      have hw : i < words.length := Nat.lt_of_lt_of_le hi hle
      simp [List.getElem?_eq_getElem hi, List.getElem?_eq_getElem hw]
    rw [allM_eq_some_all hround, Option.some.injEq, Bool.eq_iff_iff, List.all_eq_true,
      List.isPrefixOf_iff_prefix, List.prefix_iff_getElem?]
    constructor
    · intro hall i hi
      have := beq_iff_eq.mp (hall i (List.mem_range.mpr hi))
      rw [this, List.getElem?_eq_getElem hi]
    · intro hp i hi
      have hi := List.mem_range.mp hi
      rw [beq_iff_eq, hp i hi, List.getElem?_eq_getElem hi]

/-- A position stands for the best entry so far. -/
def Points (entries : List LexiconEntry) (best : Int) : Option LexiconEntry → Prop
  | none => best = -1
  | some e => ∃ i : Nat, best = i ∧ entries[i]? = some e

/-- The better of the best entry so far and another. -/
def prefer (test : LexiconEntry → Bool) (best : Option LexiconEntry) (e : LexiconEntry) :
    Option LexiconEntry :=
  match best with
  | some b => if b.keyword.size < e.keyword.size && test e then some e else best
  | none => if test e then some e else none

section
variable {entries : List LexiconEntry} {limit : Nat} {accepts : LexiconEntry → Option Bool}
  {test : LexiconEntry → Bool} {best : Int} {b : Option LexiconEntry}

theorem outdoes_of_points (h : Points entries best b)
    (hsize : ∀ e ∈ entries, e.lowered.length = e.keyword.size) {e : LexiconEntry}
    (he : e ∈ entries) :
    outdoes entries best e =
      some (b.any fun b => decide (e.keyword.size ≤ b.keyword.size)) := by
  cases b with
  | none =>
      change best = -1 at h
      rw [outdoes, if_pos (by omega)]
      rfl
  | some found =>
      obtain ⟨i, rfl, hi⟩ := h
      have hfound : found ∈ entries := List.mem_of_getElem? hi
      rw [outdoes, if_neg (by omega), at?_natCast, hi, Option.map_some, hsize e he,
        hsize found hfound]
      rfl

/-- One round of the search keeps a position of the best entry. -/
theorem searchRound_points (h : Points entries best b)
    (hsize : ∀ e ∈ entries, e.lowered.length = e.keyword.size) {e : LexiconEntry} {i : Nat}
    (hi : entries[i]? = some e) (haccepts : e.lowered.length ≤ limit → accepts e = some (test e))
    (hlong : limit < e.lowered.length → test e = false) :
    ∃ best', searchRound entries limit accepts best (e, i) = some best' ∧
      Points entries best' (prefer test b e) := by
  have he : e ∈ entries := List.mem_of_getElem? hi
  unfold searchRound
  by_cases hl : limit < e.lowered.length
  · refine ⟨best, if_pos hl, ?_⟩
    have hkeep : prefer test b e = b := by
      cases b <;> simp [prefer, hlong hl]
    rwa [hkeep]
  · rw [if_neg hl, outdoes_of_points h hsize he]
    have hacc := haccepts (Nat.not_lt.mp hl)
    have hnew : Points entries i (some e) := ⟨i, rfl, hi⟩
    simp only [Option.bind_eq_bind, Option.bind_some, hacc]
    cases b with
    | none =>
        refine ⟨_, rfl, ?_⟩
        cases ht : test e with
        | false => simpa [prefer, ht] using h
        | true => simpa [prefer, ht] using hnew
    | some found =>
        by_cases hle : e.keyword.size ≤ found.keyword.size
        · have hlt : ¬found.keyword.size < e.keyword.size := Nat.not_lt.mpr hle
          refine ⟨best, by simp [hle], ?_⟩
          simpa [prefer, hlt] using h
        · have hlt : found.keyword.size < e.keyword.size := Nat.not_le.mp hle
          refine ⟨if test e then (i : Int) else best, by simp [hle], ?_⟩
          cases ht : test e with
          | false => simpa [prefer, ht] using h
          | true => simpa [prefer, ht, hlt] using hnew

/-- The search is within its bounds and finds what is defined. -/
theorem search_eq (hsize : ∀ e ∈ entries, e.lowered.length = e.keyword.size)
    (haccepts : ∀ e ∈ entries, e.lowered.length ≤ limit → accepts e = some (test e))
    (hlong : ∀ e ∈ entries, limit < e.lowered.length → test e = false) :
    search entries limit accepts = some ((Lexicon.longest? test entries).map (·.keyword)) := by
  have hloop : ∀ (rest passed : List LexiconEntry) (best : Int) (b : Option LexiconEntry),
      passed ++ rest = entries → Points entries best b →
      ∃ best', (rest.zipIdx passed.length).foldlM (searchRound entries limit accepts) best =
        some best' ∧ Points entries best' (rest.foldl (prefer test) b) := by
    intro rest
    -- the next entry is at the position that counts those passed
    induction rest with
    | nil => exact fun passed best b _ hb => ⟨best, rfl, hb⟩
    | cons e rest ih =>
        intro passed best b hentries hb
        have hi : entries[passed.length]? = some e := by
          rw [← hentries, List.getElem?_append_right (Nat.le_refl _), Nat.sub_self]
          rfl
        have he : e ∈ entries := List.mem_of_getElem? hi
        obtain ⟨next, hround, hnext⟩ :=
          searchRound_points hb hsize hi (haccepts e he) (hlong e he)
        obtain ⟨last, hrest, hlast⟩ := ih (passed ++ [e]) next (prefer test b e)
          (by rw [List.append_assoc, List.singleton_append, hentries]) hnext
        rw [List.length_append, List.length_singleton] at hrest
        refine ⟨last, ?_, hlast⟩
        rw [List.zipIdx_cons, List.foldlM_cons, hround]
        exact hrest
  obtain ⟨best, hbest, hpoints⟩ := hloop entries [] (-1) none rfl rfl
  have hfold : entries.foldl (prefer test) none = Lexicon.longest? test entries := rfl
  rw [hfold] at hpoints
  unfold search
  simp only [List.length_nil] at hbest
  rw [hbest]
  cases hfound : Lexicon.longest? test entries with
  | none =>
      rw [hfound] at hpoints
      change best = -1 at hpoints
      subst hpoints
      rfl
  | some e =>
      rw [hfound] at hpoints
      obtain ⟨i, rfl, hi⟩ := hpoints
      simp only [Option.bind_eq_bind, Option.bind_some, at?_natCast, hi]
      rw [if_neg (by omega)]
      rfl

end

/-- What is found is an entry and passes the test. -/
theorem longest?_spec {test : LexiconEntry → Bool} {entries : List LexiconEntry} {e : LexiconEntry}
    (h : Lexicon.longest? test entries = some e) : e ∈ entries ∧ test e = true := by
  have hloop : ∀ (rest : List LexiconEntry) (b : Option LexiconEntry),
      (∀ found, b = some found → found ∈ entries ∧ test found = true) →
      (∀ e ∈ rest, e ∈ entries) →
      rest.foldl (prefer test) b = some e → e ∈ entries ∧ test e = true := by
    intro rest
    induction rest with
    | nil => exact fun b hb _ hlast => hb e hlast
    | cons first rest ih =>
        intro b hb hmem hlast
        refine ih (prefer test b first) ?_ (fun e he => hmem e (List.mem_cons_of_mem _ he)) hlast
        intro found hfound
        have hfirst : first ∈ entries := hmem first List.mem_cons_self
        cases b with
        | none =>
            simp only [prefer] at hfound
            split at hfound
            · rename_i ht
              cases hfound
              exact ⟨hfirst, ht⟩
            · cases hfound
        | some old =>
            simp only [prefer] at hfound
            split at hfound
            · rename_i ht
              cases hfound
              exact ⟨hfirst, (Bool.and_eq_true_iff.mp ht).2⟩
            · exact hb found hfound
  refine hloop entries none ?_ (fun e he => he) h
  rintro found ⟨⟩

theorem longest?_eq_none {test : LexiconEntry → Bool} {entries : List LexiconEntry}
    (h : ∀ e ∈ entries, test e = false) : Lexicon.longest? test entries = none := by
  cases hfound : Lexicon.longest? test entries with
  | none => rfl
  | some e =>
      obtain ⟨hmem, htest⟩ := longest?_spec hfound
      rw [h e hmem] at htest
      cases htest

theorem lookup_map_self {α β : Type} [BEq α] [LawfulBEq α] (f : α → β) {a : α} {as : List α}
    (h : a ∈ as) : (as.map fun a => (a, f a)).lookup a = some (f a) := by
  induction as with
  | nil => cases h
  | cons b as ih =>
      rw [List.map_cons, List.lookup_cons]
      by_cases hab : a = b
      · subst hab
        rw [beq_self_eq_true]
      · rw [beq_false_of_ne hab]
        exact ih ((List.mem_cons.mp h).resolve_left hab)

section
variable {l : Lexicon} {e : LexiconEntry} {words : List String}

theorem lowered_length (h : l.Fits e) : e.lowered.length = e.keyword.size := by
  rw [h.lowered, Keyword.lowered, Keyword.lowerWords, List.length_map]
  rfl

theorem lowered_ne_nil (h : l.Fits e) : e.lowered ≠ [] := by
  intro hnil
  have hsize := lowered_length h
  rw [hnil] at hsize
  exact h.words_ne_nil (List.length_eq_zero_iff.mp hsize.symm)

/-- The words that an entry is compared with. -/
theorem input_lookup (h : l.Fits e) (words : List String) :
    ((l.lowerInput words).lookup e.keyword.tag).getD [] =
      Keyword.lowerWords e.keyword.tag (words.take l.width) := by
  rw [Lexicon.lowerInput, lookup_map_self _ h.tag_mem, Option.getD_some]

theorem input_length (h : l.Fits e) (words : List String) :
    (((l.lowerInput words).lookup e.keyword.tag).getD []).length = min l.width words.length := by
  rw [input_lookup h, Keyword.lowerWords, List.length_map, List.length_take]

theorem not_isPrefixOf_input (h : l.Fits e) (hlong : words.length < e.lowered.length) :
    e.lowered.isPrefixOf (((l.lowerInput words).lookup e.keyword.tag).getD []) = false := by
  rw [← Bool.not_eq_true, List.isPrefixOf_iff_prefix]
  intro hp
  have hle := hp.length_le
  rw [input_length h] at hle
  omega

/-- Without words or without entries nothing is found. -/
theorem longest?_eq_none_of_isEmpty {entries : List LexiconEntry} {test : LexiconEntry → Bool}
    (h : (entries.isEmpty || words.isEmpty) = true) (hfits : ∀ e ∈ entries, l.Fits e)
    (hlong : ∀ e ∈ entries, words.length < e.lowered.length → test e = false) :
    Lexicon.longest? test entries = none := by
  refine longest?_eq_none fun e he => ?_
  rcases Bool.or_eq_true_iff.mp h with hs | hw
  · rw [List.isEmpty_iff.mp hs] at he
    cases he
  · refine hlong e he ?_
    rw [List.isEmpty_iff.mp hw]
    exact List.length_pos_iff.mpr (lowered_ne_nil (hfits e he))

theorem findKeyword_eq (hl : l.Declared) (words : List String) :
    findKeyword l words = some (l.find? words) := by
  have hfits {e : LexiconEntry} (he : e ∈ l.steps) : l.Fits e := hl.fits_step he
  unfold findKeyword Lexicon.find?
  dsimp only
  split
  · rename_i h
    rw [longest?_eq_none_of_isEmpty (Bool.or_comm _ _ ▸ h) (fun e he => hfits he)
      fun e he => not_isPrefixOf_input (hfits he)]
    rfl
  · rw [lowerInput_eq]
    exact search_eq (fun e he => lowered_length (hfits he)) (fun e _ _ => beginsWith_eq _ _)
      fun e he => not_isPrefixOf_input (hfits he)

/-- A heading is its words before the last and the last one with a colon. -/
theorem lexicon_opensWith_append (front input : List String) (last word : String)
    (rest : List String) (h : front.length = input.length) :
    Lexicon.opensWith (front ++ [last]) (input ++ word :: rest) =
      (front.isPrefixOf input && Text.startsWith (last ++ ":") word) := by
  induction front generalizing input with
  | nil =>
      rw [List.length_nil, eq_comm, List.length_eq_zero_iff] at h
      subst h
      rfl
  | cons f front ih =>
      obtain ⟨w, input, rfl⟩ := List.exists_cons_of_length_eq_add_one h.symm
      have hlength : front.length = input.length := by simpa using h
      obtain ⟨g, gs, hg⟩ : ∃ g gs, front ++ [last] = g :: gs :=
        List.exists_cons_of_ne_nil (by simp)
      rw [List.cons_append, List.cons_append, hg, Lexicon.opensWith, ← hg, ih input hlength,
        List.isPrefixOf_cons_cons, Bool.and_assoc]
      simp

theorem opensWith_eq {heading input : List String} (hne : heading ≠ [])
    (hle : heading.length ≤ input.length) :
    opensWith heading input = some (Lexicon.opensWith heading input) := by
  obtain ⟨front, last, rfl⟩ : ∃ front last, heading = front ++ [last] :=
    ⟨_, _, (List.dropLast_append_getLast hne).symm⟩
  rw [List.length_append, List.length_singleton] at hle
  obtain ⟨ws, word, rest, rfl, hws⟩ : ∃ ws word rest, input = ws ++ word :: rest ∧
      ws.length = front.length := by
    refine ⟨input.take front.length, input[front.length], input.drop (front.length + 1), ?_, ?_⟩
    · rw [List.getElem_cons_drop, List.take_append_drop]
    · rw [List.length_take]
      omega
  have hlast : ((front ++ [last]).length - 1 : Int) = (front.length : Nat) := by
    rw [List.length_append, List.length_singleton]
    omega
  have hinput : slice? (ws ++ word :: rest) 0 front.length = some ws := by
    rw [← hws, slice?_take (by simp), List.take_left]
  have hheading : slice? (front ++ [last]) 0 front.length = some front := by
    rw [slice?_take (by simp), List.take_left]
  have hword : at? (ws ++ word :: rest) front.length = some word := by
    rw [← hws, at?_natCast, List.getElem?_append_right (Nat.le_refl _), Nat.sub_self]
    rfl
  have hend : at? (front ++ [last]) front.length = some last := by
    rw [at?_natCast, List.getElem?_concat_length]
  rw [opensWith, lexicon_opensWith_append front ws last word rest hws.symm]
  simp only [hlast, hinput, hheading, hword, hend, beginsWith_eq, Option.bind_eq_bind,
    Option.bind_some]
  cases front.isPrefixOf ws <;> rfl

theorem opensWith_of_longer {heading input : List String} (h : input.length < heading.length) :
    Lexicon.opensWith heading input = false := by
  induction heading generalizing input with
  | nil => cases h
  | cons f heading ih =>
      cases input with
      | nil => cases heading <;> rfl
      | cons w input =>
          have hrest : input.length < heading.length := by simpa using h
          cases heading with
          | nil => cases hrest
          | cons g heading =>
              rw [Lexicon.opensWith, ih hrest, Bool.and_false]
              simp

theorem not_opensWith_input (h : l.Fits e) (hlong : words.length < e.lowered.length) :
    Lexicon.opensWith e.lowered (((l.lowerInput words).lookup e.keyword.tag).getD []) = false := by
  refine opensWith_of_longer ?_
  rw [input_length h]
  omega

theorem findHeader_eq (hl : l.Declared) (line : String) :
    findHeader l line = some (l.findHeader? line) := by
  have hfits {e : LexiconEntry} (he : e ∈ l.headers) : l.Fits e := hl.fits_header he
  unfold findHeader Lexicon.findHeader?
  dsimp only
  split
  · rename_i h
    rw [longest?_eq_none_of_isEmpty h (fun e he => hfits he)
      fun e he => not_opensWith_input (hfits he)]
    rfl
  · rw [lowerInput_eq]
    refine search_eq (fun e he => lowered_length (hfits he)) (fun e he hle => ?_)
      fun e he => not_opensWith_input (hfits he)
    refine opensWith_eq (lowered_ne_nil (hfits he)) ?_
    -- the entry is no longer than the line and than the lexicon is wide
    have hwidth := (hfits he).size_le
    rw [← lowered_length (hfits he)] at hwidth
    rw [input_length (hfits he)]
    omega

end

theorem capitalized_eq (k : Keyword) : capitalized k = some k.capitalized := by
  unfold capitalized Keyword.capitalized
  cases htext : k.text.toList with
  | nil => rfl
  | cons c cs =>
      have hrest := sliceBytes?_middle [c] cs []
      simp only [List.append_nil, List.singleton_append, byteCount_cons, byteCount_nil,
        Nat.add_zero] at hrest
      simp only [List.isEmpty_cons, Bool.false_eq_true, if_false, at?_zero_cons,
        Option.bind_eq_bind, Option.bind_some, byteCount_cons, hrest]
      rfl

theorem missDistance_eq (folded : String) (k : Keyword) :
    missDistance folded k = some (Lexicon.missDistance? folded k) := by
  unfold missDistance Lexicon.missDistance? Keyword.size
  match k.words with
  | [] => rfl
  | [word] => rfl
  | _ :: _ :: _ => simp

theorem nearMiss_eq (l : Lexicon) (word : String) : nearMiss l word = some (l.nearMiss? word) := by
  unfold nearMiss
  rw [foldlM_eq_some_foldl fun best k => ?_]
  · rfl
  · unfold missRound
    simp only [missDistance_eq, Option.bind_eq_bind, Option.bind_some]
    cases Lexicon.missDistance? (Text.fold word) k with
    | none => rfl
    | some d => cases best <;> rfl

end Stepwise.Bounded
