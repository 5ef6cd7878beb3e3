import Mathlib.Data.List.Induction
import Stepwise.Proofs.CapitalizedKeywords

/-!
# The longest declared phrase

A search in a lexicon is described on its declarations alone. Whether a phrase opens a line
is a matter of that phrase and the line: its words, in the lower case of its own language,
are the leading words of the line in the lower case of the same language. What is found is
the first of the longest phrases that open the line.

The entries of a lexicon, the cut of the line to the width of the lexicon and the table of
languages do not appear in that description. So the declarations of headings, those in
other languages and the words after the longest phrase have no influence on what is found.
-/
namespace Stepwise

/-- An accepted element that is longer than every accepted one before it, and as long as
every accepted one after it. -/
def FirstLongest {α : Type} (size : α → Nat) (accepts : α → Prop) (all : List α) (a : α) : Prop :=
  ∃ before after, all = before ++ a :: after ∧ accepts a ∧
    (∀ b ∈ before, accepts b → size b < size a) ∧ ∀ b ∈ after, accepts b → size b ≤ size a

namespace FirstLongest
variable {α β : Type} {size : α → Nat} {accepts : α → Prop} {all : List α} {a b : α}

theorem mem (h : FirstLongest size accepts all a) : a ∈ all := by
  obtain ⟨before, after, rfl, -⟩ := h
  exact List.mem_append_right _ List.mem_cons_self

theorem accepted (h : FirstLongest size accepts all a) : accepts a := by
  obtain ⟨-, -, -, ha, -⟩ := h
  exact ha

/-- There is only one. -/
theorem unique (ha : FirstLongest size accepts all a) (hb : FirstLongest size accepts all b) :
    a = b := by
  obtain ⟨before, after, rfl, haccepts, hbefore, hafter⟩ := ha
  obtain ⟨before', after', hall, haccepts', hbefore', hafter'⟩ := hb
  rcases List.append_eq_append_iff.mp hall with ⟨mid, rfl, hmid⟩ | ⟨mid, rfl, hmid⟩
  · cases mid with
    | nil => exact (List.cons.inj hmid).1
    | cons m mid =>
        obtain ⟨rfl, rfl⟩ := List.cons.inj hmid
        have hlt := hbefore' a (by simp) haccepts
        have hle := hafter b (by simp) haccepts'
        omega
  · cases mid with
    | nil => exact (List.cons.inj hmid).1.symm
    | cons m mid =>
        obtain ⟨rfl, rfl⟩ := List.cons.inj hmid
        have hlt := hbefore b (by simp) haccepts'
        have hle := hafter' a (by simp) haccepts
        omega

/-- An element at the end that is not accepted, or is no longer, changes nothing. -/
theorem concat_of_le (h : FirstLongest size accepts all a)
    (hb : accepts b → size b ≤ size a) : FirstLongest size accepts (all ++ [b]) a := by
  obtain ⟨before, after, rfl, ha, hbefore, hafter⟩ := h
  refine ⟨before, after ++ [b], by simp, ha, hbefore, ?_⟩
  intro c hc
  rcases List.mem_append.mp hc with hc | hc
  · exact hafter c hc
  · rw [List.mem_singleton.mp hc]
    exact hb

theorem concat (hb : accepts b) (h : ∀ c ∈ all, accepts c → size c < size b) :
    FirstLongest size accepts (all ++ [b]) b :=
  ⟨all, [], rfl, hb, h, fun _ hc => absurd hc List.not_mem_nil⟩

theorem bound (h : FirstLongest size accepts all a) (hb : b ∈ all) (haccepts : accepts b) :
    size b ≤ size a := by
  obtain ⟨before, after, rfl, -, hbefore, hafter⟩ := h
  rcases List.mem_append.mp hb with hb | hb
  · exact Nat.le_of_lt (hbefore b hb haccepts)
  · rcases List.mem_cons.mp hb with rfl | hb
    · exact Nat.le_refl _
    · exact hafter b hb haccepts

/-- The first longest of the images is the image of the first longest whose image is
accepted. -/
theorem of_filterMap {f : α → Option β} {size' : β → Nat} {accepts' : β → Prop} {b : β}
    (hsize : ∀ a b, f a = some b → size' b = size a)
    (haccepts : ∀ a ∈ all, accepts a ↔ ∃ b, f a = some b ∧ accepts' b)
    (h : FirstLongest size' accepts' (all.filterMap f) b) :
    ∃ a, FirstLongest size accepts all a ∧ f a = some b := by
  obtain ⟨before, after, hsplit, hb, hbefore, hafter⟩ := h
  obtain ⟨front, back, rfl, rfl, hback⟩ := List.filterMap_eq_append_iff.mp hsplit
  obtain ⟨skipped, a, rest, rfl, hskipped, ha, rfl⟩ := List.filterMap_eq_cons_iff.mp hback
  have hmem : a ∈ front ++ (skipped ++ a :: rest) := by simp
  refine ⟨a, ⟨front ++ skipped, rest, by simp, (haccepts a hmem).mpr ⟨b, ha, hb⟩, ?_, ?_⟩, ha⟩
  · intro c hc hacc
    have hc' : c ∈ front ++ (skipped ++ a :: rest) := by
      rw [← List.append_assoc]
      exact List.mem_append_left _ hc
    obtain ⟨d, hd, hd'⟩ := (haccepts c hc').mp hacc
    rw [← hsize c d hd, ← hsize a b ha]
    rcases List.mem_append.mp hc with hc | hc
    · exact hbefore d (List.mem_filterMap.mpr ⟨c, hc, hd⟩) hd'
    · rw [hskipped c hc] at hd
      cases hd
  · intro c hc hacc
    have hc' : c ∈ front ++ (skipped ++ a :: rest) := by simp [hc]
    obtain ⟨d, hd, hd'⟩ := (haccepts c hc').mp hacc
    rw [← hsize c d hd, ← hsize a b ha]
    exact hafter d (List.mem_filterMap.mpr ⟨c, hc, hd⟩) hd'

theorem congr {accepts' : α → Prop} (haccepts : ∀ b ∈ all, accepts b ↔ accepts' b)
    (h : FirstLongest size accepts all a) : FirstLongest size accepts' all a := by
  obtain ⟨before, after, rfl, ha, hbefore, hafter⟩ := h
  refine ⟨before, after, rfl, (haccepts a (by simp)).mp ha, fun b hb hacc => ?_,
    fun b hb hacc => ?_⟩
  · exact hbefore b hb ((haccepts b (by simp [hb])).mpr hacc)
  · exact hafter b hb ((haccepts b (by simp [hb])).mpr hacc)

/-- Other elements can be left out. -/
theorem filter {kept : α → Bool} (ha : kept a = true) (h : FirstLongest size accepts all a) :
    FirstLongest size accepts (all.filter kept) a := by
  obtain ⟨before, after, rfl, haccepts, hbefore, hafter⟩ := h
  refine ⟨before.filter kept, after.filter kept, ?_, haccepts, fun b hb => ?_, fun b hb => ?_⟩
  · rw [List.filter_append, List.filter_cons_of_pos ha]
  · exact hbefore b (List.mem_of_mem_filter hb)
  · exact hafter b (List.mem_of_mem_filter hb)

end FirstLongest

/-! ## The search of a lexicon -/

namespace Lexicon

/-- The search gives the first longest entry that passes the test, or none passes it. -/
theorem longest?_cases (test : LexiconEntry → Bool) (entries : List LexiconEntry) :
    (longest? test entries = none ∧ ∀ e ∈ entries, test e = false) ∨
      ∃ e, longest? test entries = some e ∧
        FirstLongest (·.keyword.size) (test · = true) entries e := by
  induction entries using List.reverseRecOn with
  | nil => exact .inl ⟨rfl, fun _ he => absurd he List.not_mem_nil⟩
  | append_singleton entries e ih =>
      have hround : longest? test (entries ++ [e]) =
          Bounded.prefer test (longest? test entries) e := by
        rw [longest?, List.foldl_append]
        rfl
      rw [hround]
      rcases ih with ⟨hnone, hall⟩ | ⟨b, hsome, hb⟩
      · cases ht : test e with
        | false =>
            refine .inl ⟨by simp [hnone, Bounded.prefer, ht], fun c hc => ?_⟩
            rcases List.mem_append.mp hc with hc | hc
            · exact hall c hc
            · rw [List.mem_singleton.mp hc, ht]
        | true =>
            refine .inr ⟨e, by simp [hnone, Bounded.prefer, ht], .concat ht fun c hc hacc => ?_⟩
            rw [hall c hc] at hacc
            cases hacc
      · by_cases hlonger : b.keyword.size < e.keyword.size ∧ test e = true
        · refine .inr ⟨e, by simp [hsome, Bounded.prefer, hlonger], .concat hlonger.2 ?_⟩
          exact fun c hc hacc => Nat.lt_of_le_of_lt (hb.bound hc hacc) hlonger.1
        · have hkeep : Bounded.prefer test (some b) e = some b :=
            if_neg (by simpa using hlonger)
          refine .inr ⟨b, by rw [hsome, hkeep], hb.concat_of_le ?_⟩
          exact fun ht => Nat.not_lt.mp fun hlt => hlonger ⟨hlt, ht⟩

end Lexicon

/-! ## Phrases that open a line -/

namespace Phrase

def keyword (p : Phrase) : Keyword :=
  ⟨p.plainWords, Language.parse p.language, p.kind⟩

def size (p : Phrase) : Nat :=
  p.plainWords.length

def lower (p : Phrase) (word : String) : String :=
  Text.lower (Language.parse p.language).tailoring word

structure OpensStep (p : Phrase) (words : List String) : Prop where
  kind : p.kind = .step
  words_ne_nil : p.plainWords ≠ []
  not_asterisk : p.plainWords ≠ ["*"]
  length_le : p.size ≤ words.length
  leading : (words.take p.size).map p.lower = p.plainWords.map p.lower

/-- Words that begin as a heading does: its words before the last one are the leading words,
and the next word begins with its last one and a colon. -/
def Heads (p : Phrase) (words : List String) : Prop :=
  ∃ front last before word after, p.plainWords = front ++ [last] ∧
    words = before ++ word :: after ∧ before.map p.lower = front.map p.lower ∧
      ∃ more, (p.lower word).toList = (p.lower last).toList ++ ':' :: more

structure OpensHeader (p : Phrase) (words : List String) : Prop where
  kind : p.kind ≠ .step
  not_asterisk : p.plainWords ≠ ["*"]
  heads : p.Heads words

theorem keyword?_eq_some_iff {p : Phrase} {k : Keyword} :
    p.keyword? = some k ↔ p.plainWords ≠ [] ∧ p.plainWords ≠ ["*"] ∧ k = p.keyword := by
  unfold keyword?
  split
  · rename_i h
    simp [h]
  · rename_i h
    simp [h]
  · rename_i hne hasterisk
    rw [Option.some.injEq]
    exact ⟨fun h => ⟨hne, hasterisk, h.symm⟩, fun h => h.2.2.symm⟩

theorem keyword?_congr {p q : Phrase} (h : p.keyword = q.keyword) : p.keyword? = q.keyword? := by
  have hwords : p.plainWords = q.plainWords := congrArg Keyword.words h
  refine Option.ext fun k => ?_
  rw [keyword?_eq_some_iff, keyword?_eq_some_iff, h, hwords]

/-- The entry of a phrase among the step phrases or among the headings. -/
def entry? (header : Bool) (p : Phrase) : Option LexiconEntry :=
  if p.kind.isHeader = header then p.keyword?.map fun k => ⟨k, k.lowered⟩ else none

theorem entry?_eq_some_iff {p : Phrase} {header : Bool} {e : LexiconEntry} :
    p.entry? header = some e ↔ p.kind.isHeader = header ∧ p.plainWords ≠ [] ∧
      p.plainWords ≠ ["*"] ∧ e = ⟨p.keyword, p.plainWords.map p.lower⟩ := by
  unfold entry?
  split
  · rename_i hkind
    rw [Option.map_eq_some_iff]
    constructor
    · rintro ⟨k, hk, rfl⟩
      obtain ⟨hne, hasterisk, rfl⟩ := keyword?_eq_some_iff.mp hk
      exact ⟨hkind, hne, hasterisk, rfl⟩
    · rintro ⟨-, hne, hasterisk, rfl⟩
      exact ⟨p.keyword, keyword?_eq_some_iff.mpr ⟨hne, hasterisk, rfl⟩, rfl⟩
  · rename_i hkind
    simp [hkind]

end Phrase

theorem Kind.isHeader_eq_false {k : Kind} : k.isHeader = false ↔ k = .step := by
  cases k <;> simp [isHeader]

theorem Kind.isHeader_eq_true {k : Kind} : k.isHeader = true ↔ k ≠ .step := by
  rw [← Bool.not_eq_false, ne_eq, isHeader_eq_false]

namespace Lexicon

theorem ofPhrases_congr {phrases others : List Phrase}
    (h : phrases.map Phrase.keyword = others.map Phrase.keyword) :
    ofPhrases phrases = ofPhrases others := by
  have hkeywords : phrases.filterMap Phrase.keyword? = others.filterMap Phrase.keyword? := by
    induction phrases generalizing others with
    | nil =>
        rw [List.map_nil, eq_comm, List.map_eq_nil_iff] at h
        rw [h]
    | cons p phrases ih =>
        obtain ⟨q, others, rfl⟩ : ∃ q qs, others = q :: qs := by
          cases others with
          | nil => cases h
          | cons q qs => exact ⟨q, qs, rfl⟩
        obtain ⟨hp, hrest⟩ := List.cons.inj h
        rw [List.filterMap_cons, List.filterMap_cons, Phrase.keyword?_congr hp, ih hrest]
  rw [ofPhrases, ofPhrases, hkeywords]

/-- The entries of one sort are the entries of the phrases. -/
theorem filter_entries (phrases : List Phrase) (header : Bool) :
    (((phrases.filterMap Phrase.keyword?).map fun k => LexiconEntry.mk k k.lowered).filter
      fun e => e.keyword.kind.isHeader == header) = phrases.filterMap (Phrase.entry? header) := by
  rw [List.map_filterMap, List.filter_filterMap]
  refine List.filterMap_congr fun p _ => ?_
  rw [Phrase.entry?]
  cases hk : p.keyword? with
  | none => split <;> rfl
  | some k =>
      obtain ⟨-, -, rfl⟩ := Phrase.keyword?_eq_some_iff.mp hk
      rw [Option.map_some, Option.filter_some]
      exact ite_congr (propext beq_iff_eq) (fun _ => rfl) fun _ => rfl

theorem steps_ofPhrases (phrases : List Phrase) :
    (ofPhrases phrases).steps = phrases.filterMap (Phrase.entry? false) := by
  rw [← filter_entries]
  simp [ofPhrases]

theorem headers_ofPhrases (phrases : List Phrase) :
    (ofPhrases phrases).headers = phrases.filterMap (Phrase.entry? true) := by
  rw [← filter_entries]
  simp [ofPhrases]

/-- What a search among declarations gives: the keyword of the first of the longest that
open the line, and nothing when none does. -/
def FoundAmong (opens : Phrase → Prop) (phrases : List Phrase) : Option Keyword → Prop
  | none => ∀ p ∈ phrases, ¬opens p
  | some k => ∃ p, FirstLongest Phrase.size opens phrases p ∧ k = p.keyword

namespace FoundAmong
variable {opens : Phrase → Prop} {phrases : List Phrase} {r r' : Option Keyword}

theorem unique (h : FoundAmong opens phrases r) (h' : FoundAmong opens phrases r') : r = r' := by
  cases r with
  | none =>
      cases r' with
      | none => rfl
      | some k =>
          obtain ⟨p, hp, -⟩ := h'
          exact absurd hp.accepted (h p hp.mem)
  | some k =>
      obtain ⟨p, hp, rfl⟩ := h
      cases r' with
      | none => exact absurd hp.accepted (h' p hp.mem)
      | some k' =>
          obtain ⟨q, hq, rfl⟩ := h'
          rw [hp.unique hq]

theorem iff_eq (h : FoundAmong opens phrases r) : FoundAmong opens phrases r' ↔ r = r' :=
  ⟨h.unique, fun hr => hr ▸ h⟩

/-- Declarations that do not open the line can be left out. -/
theorem filter {kept : Phrase → Bool} (hkept : ∀ p ∈ phrases, opens p → kept p = true)
    (h : FoundAmong opens phrases r) : FoundAmong opens (phrases.filter kept) r := by
  cases r with
  | none => exact fun p hp => h p (List.mem_of_mem_filter hp)
  | some k =>
      obtain ⟨p, hp, rfl⟩ := h
      exact ⟨p, hp.filter (hkept p hp.mem hp.accepted), rfl⟩

theorem congr {opens' : Phrase → Prop} (hopens : ∀ p ∈ phrases, opens p ↔ opens' p)
    (h : FoundAmong opens phrases r) : FoundAmong opens' phrases r := by
  cases r with
  | none => exact fun p hp => mt (hopens p hp).mpr (h p hp)
  | some k =>
      obtain ⟨p, hp, rfl⟩ := h
      exact ⟨p, hp.congr hopens, rfl⟩

/-- What is found among the entries that pass a test. -/
theorem of_entries {header : Bool} {test : LexiconEntry → Bool}
    (htest : ∀ p ∈ phrases, opens p ↔ ∃ e, p.entry? header = some e ∧ test e = true) :
    FoundAmong opens phrases
      ((longest? test (phrases.filterMap (Phrase.entry? header))).map (·.keyword)) := by
  rcases longest?_cases test (phrases.filterMap (Phrase.entry? header)) with
    ⟨hnone, hall⟩ | ⟨e, hsome, hfirst⟩
  · rw [hnone]
    intro p hp hopens
    obtain ⟨e, he, ht⟩ := (htest p hp).mp hopens
    rw [hall e (List.mem_filterMap.mpr ⟨p, hp, he⟩)] at ht
    cases ht
  · rw [hsome]
    have hsize : ∀ p e, Phrase.entry? header p = some e → e.keyword.size = p.size := by
      intro p e he
      obtain ⟨-, -, -, rfl⟩ := Phrase.entry?_eq_some_iff.mp he
      rfl
    obtain ⟨p, hp, he⟩ := hfirst.of_filterMap hsize htest
    obtain ⟨-, -, -, rfl⟩ := Phrase.entry?_eq_some_iff.mp he
    exact ⟨p, hp, rfl⟩

end FoundAmong

section
variable {phrases : List Phrase} {p : Phrase}

theorem fits_entry (hp : p ∈ phrases) (hne : p.plainWords ≠ []) (hasterisk : p.plainWords ≠ ["*"]) :
    (ofPhrases phrases).Fits ⟨p.keyword, p.plainWords.map p.lower⟩ :=
  fits_of_declared (List.mem_filterMap.mpr
    ⟨p, hp, Phrase.keyword?_eq_some_iff.mpr ⟨hne, hasterisk, rfl⟩⟩)

theorem opensStep_iff (hp : p ∈ phrases) (words : List String) :
    p.OpensStep words ↔ ∃ e, p.entry? false = some e ∧ e.lowered.isPrefixOf
      ((((ofPhrases phrases).lowerInput words).lookup e.keyword.tag).getD []) = true := by
  constructor
  · rintro ⟨hkind, hne, hasterisk, -, hleading⟩
    have hfits := fits_entry hp hne hasterisk
    refine ⟨_, Phrase.entry?_eq_some_iff.mpr
      ⟨Kind.isHeader_eq_false.mpr hkind, hne, hasterisk, rfl⟩, ?_⟩
    rw [Bounded.input_lookup hfits, List.isPrefixOf_iff_prefix]
    have hcut : words.take p.size <+: words.take (ofPhrases phrases).width :=
      List.take_prefix_take_left hfits.size_le
    exact hleading ▸ hcut.map p.lower
  · rintro ⟨e, he, htest⟩
    obtain ⟨hkind, hne, hasterisk, rfl⟩ := Phrase.entry?_eq_some_iff.mp he
    have hfits := fits_entry hp hne hasterisk
    have hwidth : p.plainWords.length ≤ (ofPhrases phrases).width := hfits.size_le
    rw [Bounded.input_lookup hfits, List.isPrefixOf_iff_prefix] at htest
    have hlength := htest.length_le
    have hleading := List.prefix_iff_eq_take.mp htest
    simp only [Keyword.lowerWords, List.length_map, List.length_take] at hlength hleading
    rw [← List.map_take, List.take_take, Nat.min_eq_left hwidth] at hleading
    refine ⟨Kind.isHeader_eq_false.mp hkind, hne, hasterisk, ?_, hleading.symm⟩
    exact Nat.le_trans hlength (Nat.min_le_right _ _)

theorem opensWith_append_iff {front input : List String} {last : String} :
    opensWith (front ++ [last]) input = true ↔
      ∃ word rest, input = front ++ word :: rest ∧ Text.startsWith (last ++ ":") word = true := by
  induction front generalizing input with
  | nil => cases input <;> simp [opensWith]
  | cons f front ih =>
      obtain ⟨g, heading, hheading⟩ := List.exists_cons_of_ne_nil
        (List.append_ne_nil_of_right_ne_nil front (List.cons_ne_nil last []))
      cases input with
      | nil => simp [opensWith]
      | cons w input =>
          rw [List.cons_append, hheading, opensWith, ← hheading, Bool.and_eq_true, ih, beq_iff_eq]
          · constructor
            · rintro ⟨rfl, word, rest, rfl, hword⟩
              exact ⟨word, rest, rfl, hword⟩
            · rintro ⟨word, rest, hsplit, hword⟩
              obtain ⟨rfl, rfl⟩ := List.cons.inj hsplit
              exact ⟨rfl, word, rest, rfl, hword⟩
          · simp

theorem startsWith_colon_iff {last word : String} :
    Text.startsWith (last ++ ":") word = true ↔
      ∃ more, word.toList = last.toList ++ ':' :: more := by
  have htoList : (last ++ ":").toList = last.toList ++ [':'] := by simp
  rw [Text.startsWith, List.isPrefixOf_iff_prefix, htoList]
  constructor
  · rintro ⟨more, hmore⟩
    exact ⟨more, by rw [← hmore, List.append_assoc]; rfl⟩
  · rintro ⟨more, hmore⟩
    exact ⟨more, by rw [hmore, List.append_assoc]; rfl⟩

/-- The cut of the line to the width of the lexicon leaves every word that a heading is
compared with. -/
theorem heads_iff {width : Nat} (hwidth : p.size ≤ width) (words : List String) :
    p.Heads words ↔ p.plainWords ≠ [] ∧
      opensWith (p.plainWords.map p.lower) ((words.take width).map p.lower) = true := by
  constructor
  · rintro ⟨front, last, before, word, after, hwords, rfl, hfront, hword⟩
    have hsize : p.size = front.length + 1 := by
      rw [Phrase.size, hwords, List.length_append, List.length_singleton]
    have hlength : before.length = front.length := by
      simpa using congrArg List.length hfront
    refine ⟨by simp [hwords], ?_⟩
    obtain ⟨n, hn⟩ : ∃ n, width - before.length = n + 1 := ⟨width - before.length - 1, by omega⟩
    rw [hwords, List.map_append, List.map_singleton, opensWith_append_iff, List.take_append,
      List.take_of_length_le (by omega), hn, List.take_succ_cons, List.map_append, List.map_cons,
      hfront]
    exact ⟨_, _, rfl, startsWith_colon_iff.mpr hword⟩
  · rintro ⟨hne, hopens⟩
    obtain ⟨front, last, hwords⟩ : ∃ front last, p.plainWords = front ++ [last] :=
      ⟨_, _, (List.dropLast_append_getLast hne).symm⟩
    rw [hwords, List.map_append, List.map_singleton, opensWith_append_iff] at hopens
    obtain ⟨lowered, rest, hsplit, hword⟩ := hopens
    obtain ⟨before, tail, htake, hbefore, htail⟩ := List.map_eq_append_iff.mp hsplit
    obtain ⟨word, after, rfl, rfl, -⟩ := List.map_eq_cons_iff.mp htail
    refine ⟨front, last, before, word, after ++ words.drop width, hwords, ?_, hbefore,
      startsWith_colon_iff.mp hword⟩
    conv => lhs; rw [← List.take_append_drop width words, htake]
    simp

theorem opensHeader_iff (hp : p ∈ phrases) (words : List String) :
    p.OpensHeader words ↔ ∃ e, p.entry? true = some e ∧ opensWith e.lowered
      ((((ofPhrases phrases).lowerInput words).lookup e.keyword.tag).getD []) = true := by
  constructor
  · rintro ⟨hkind, hasterisk, hheads⟩
    have hne : p.plainWords ≠ [] := ((heads_iff (Nat.le_refl _) words).mp hheads).1
    have hfits := fits_entry hp hne hasterisk
    refine ⟨_, Phrase.entry?_eq_some_iff.mpr
      ⟨Kind.isHeader_eq_true.mpr hkind, hne, hasterisk, rfl⟩, ?_⟩
    rw [Bounded.input_lookup hfits]
    exact ((heads_iff hfits.size_le words).mp hheads).2
  · rintro ⟨e, he, htest⟩
    obtain ⟨hkind, hne, hasterisk, rfl⟩ := Phrase.entry?_eq_some_iff.mp he
    have hfits := fits_entry hp hne hasterisk
    rw [Bounded.input_lookup hfits] at htest
    exact ⟨Kind.isHeader_eq_true.mp hkind, hasterisk,
      (heads_iff hfits.size_le words).mpr ⟨hne, htest⟩⟩

end

theorem find?_found (phrases : List Phrase) (words : List String) :
    FoundAmong (·.OpensStep words) phrases ((ofPhrases phrases).find? words) := by
  rw [find?, steps_ofPhrases]
  exact .of_entries fun p hp => opensStep_iff hp words

theorem findHeader?_found (phrases : List Phrase) (line : String) :
    FoundAmong (·.OpensHeader (Text.words line)) phrases
      ((ofPhrases phrases).findHeader? line) := by
  rw [findHeader?, headers_ofPhrases]
  exact .of_entries fun p hp => opensHeader_iff hp (Text.words line)

/-! ## What is found -/

theorem FoundAmong.eq_some_iff {opens : Phrase → Prop} {phrases : List Phrase}
    {r : Option Keyword} (h : FoundAmong opens phrases r) (k : Keyword) :
    r = some k ↔ ∃ p, FirstLongest Phrase.size opens phrases p ∧ k = p.keyword :=
  h.iff_eq.symm

theorem FoundAmong.eq_none_iff {opens : Phrase → Prop} {phrases : List Phrase}
    {r : Option Keyword} (h : FoundAmong opens phrases r) :
    r = none ↔ ∀ p ∈ phrases, ¬opens p :=
  h.iff_eq.symm

/-- Leaving out declarations that do not open the words changes nothing. -/
theorem find?_filter {phrases : List Phrase} {words : List String} {kept : Phrase → Bool}
    (hkept : ∀ p ∈ phrases, p.OpensStep words → kept p = true) :
    (ofPhrases (phrases.filter kept)).find? words = (ofPhrases phrases).find? words :=
  (find?_found _ words).unique ((find?_found phrases words).filter hkept)

theorem findHeader?_filter {phrases : List Phrase} {line : String} {kept : Phrase → Bool}
    (hkept : ∀ p ∈ phrases, p.OpensHeader (Text.words line) → kept p = true) :
    (ofPhrases (phrases.filter kept)).findHeader? line = (ofPhrases phrases).findHeader? line :=
  (findHeader?_found _ line).unique ((findHeader?_found phrases line).filter hkept)

/-- The languages that are declared beside that of the phrase found can be left out, also
when they have phrases that open the words. -/
theorem find?_filter_language {phrases : List Phrase} {words : List String} {k : Keyword}
    (h : (ofPhrases phrases).find? words = some k) :
    (ofPhrases (phrases.filter fun p => Language.parse p.language = k.tag)).find? words =
      some k := by
  obtain ⟨p, hp, rfl⟩ := (find?_found phrases words).eq_some_iff k |>.mp h
  refine ((find?_found _ words).eq_some_iff _).mpr ⟨p, hp.filter ?_, rfl⟩
  exact decide_eq_true rfl

theorem opensStep_congr {p : Phrase} {n : Nat} {words others : List String}
    (hn : p.kind = .step → p.plainWords ≠ ["*"] → p.size ≤ n)
    (h : words.take n = others.take n) (hopens : p.OpensStep words) : p.OpensStep others := by
  obtain ⟨hkind, hne, hasterisk, hlength, hleading⟩ := hopens
  have hsize := hn hkind hasterisk
  have htake : others.take p.size = words.take p.size := by
    have := congrArg (List.take p.size) h
    rwa [List.take_take, List.take_take, Nat.min_eq_left hsize, eq_comm] at this
  have hothers := congrArg List.length htake
  rw [List.length_take, List.length_take] at hothers
  exact ⟨hkind, hne, hasterisk, by omega, htake ▸ hleading⟩

/-- Words that agree as far as the longest step phrase give the same keyword. -/
theorem find?_congr {phrases : List Phrase} {n : Nat} {words others : List String}
    (hn : ∀ p ∈ phrases, p.kind = .step → p.plainWords ≠ ["*"] → p.size ≤ n)
    (h : words.take n = others.take n) :
    (ofPhrases phrases).find? words = (ofPhrases phrases).find? others :=
  (find?_found phrases words).congr
    (fun p hp => ⟨opensStep_congr (hn p hp) h, opensStep_congr (hn p hp) h.symm⟩) |>.unique
    (find?_found phrases others)

/-- The search for a step phrase finds the first of the longest that the words begin with.
Declarations of headings and of phrases that do not open the words do not matter, nor the
languages of other phrases, nor how the words of a phrase are divided between the entries
of its declaration, nor words after the longest phrase. -/
theorem find?_first_longest (phrases : List Phrase) :
    (∀ words k, (ofPhrases phrases).find? words = some k ↔
      ∃ p, FirstLongest Phrase.size (·.OpensStep words) phrases p ∧ k = p.keyword) ∧
    (∀ words, (ofPhrases phrases).find? words = none ↔ ∀ p ∈ phrases, ¬p.OpensStep words) ∧
    (∀ words, (ofPhrases (phrases.filter (·.kind = .step))).find? words =
      (ofPhrases phrases).find? words) ∧
    (∀ words (kept : Phrase → Bool), (∀ p ∈ phrases, p.OpensStep words → kept p = true) →
      (ofPhrases (phrases.filter kept)).find? words = (ofPhrases phrases).find? words) ∧
    (∀ words k, (ofPhrases phrases).find? words = some k →
      (ofPhrases (phrases.filter fun p => Language.parse p.language = k.tag)).find? words =
        some k) ∧
    (∀ others, others.map Phrase.keyword = phrases.map Phrase.keyword → ∀ words,
      (ofPhrases others).find? words = (ofPhrases phrases).find? words) ∧
    (∀ n, (∀ p ∈ phrases, p.kind = .step → p.plainWords ≠ ["*"] → p.size ≤ n) →
      ∀ words others, words.take n = others.take n →
        (ofPhrases phrases).find? words = (ofPhrases phrases).find? others) := by
  refine ⟨fun words => (find?_found phrases words).eq_some_iff,
    fun words => (find?_found phrases words).eq_none_iff, fun words => ?_,
    fun words kept => find?_filter, fun words k => find?_filter_language,
    fun others h words => ?_, fun n hn words others => find?_congr hn⟩
  · exact find?_filter fun p _ hopens => decide_eq_true hopens.kind
  · rw [ofPhrases_congr h]

/-- Two phrases of two words are the longest here, and the first of them is found. -/
theorem find?_first_longest_given :
    let phrases : List Phrase := [⟨"", .step, ["Given"]⟩, ⟨"", .feature, ["given that x"]⟩,
      ⟨"", .step, ["Given that"]⟩, ⟨"", .step, ["GIVEN", "that"]⟩]
    let found : Keyword := ⟨["Given", "that"], Language.parse "", .step⟩
    (ofPhrases phrases).find? ["given", "THAT", "x"] = some found ∧
      (∃ p, FirstLongest Phrase.size (·.OpensStep ["given", "THAT", "x"]) phrases p ∧
        found = p.keyword) ∧
      (ofPhrases phrases).find? ["given", "THAT", "y"] = some found ∧
      (ofPhrases (phrases.filter (·.kind = .step))).find? ["given", "THAT", "x"] = some found ∧
      ∀ p ∈ phrases, ¬p.OpensStep ["then"] := by
  intro phrases found
  have hfound : (ofPhrases phrases).find? ["given", "THAT", "x"] = some found := by
    decide +kernel
  have hnone : (ofPhrases phrases).find? ["then"] = none := by decide +kernel
  have hsize : ∀ p ∈ phrases, p.kind = .step → p.plainWords ≠ ["*"] → p.size ≤ 2 := by
    decide +kernel
  obtain ⟨hsome, hempty, hsteps, -, -, -, hbeyond⟩ := find?_first_longest phrases
  have hlater := hbeyond 2 hsize ["given", "THAT", "x"] ["given", "THAT", "y"] rfl
  exact ⟨hfound, (hsome _ _).mp hfound, hlater ▸ hfound, (hsteps _).trans hfound,
    (hempty _).mp hnone⟩

/-- The search for a heading finds the first of the longest whose last word is followed by a
colon in the line. White space around the line does not matter, nor do step phrases. -/
theorem findHeader?_first_longest (phrases : List Phrase) :
    (∀ line k, (ofPhrases phrases).findHeader? line = some k ↔
      ∃ p, FirstLongest Phrase.size (·.OpensHeader (Text.words line)) phrases p ∧
        k = p.keyword) ∧
    (∀ line, (ofPhrases phrases).findHeader? line = none ↔
      ∀ p ∈ phrases, ¬p.OpensHeader (Text.words line)) ∧
    (∀ front line back, (∀ c ∈ front, Text.isBlank c = true) →
      (∀ c ∈ back, Text.isBlank c = true) →
      (ofPhrases phrases).findHeader? (String.ofList (front ++ line ++ back)) =
        (ofPhrases phrases).findHeader? (String.ofList line)) ∧
    (∀ line, (ofPhrases (phrases.filter (·.kind ≠ .step))).findHeader? line =
      (ofPhrases phrases).findHeader? line) ∧
    (∀ line k, (ofPhrases phrases).findHeader? line = some k → k.kind ≠ .step) := by
  refine ⟨fun line => (findHeader?_found phrases line).eq_some_iff,
    fun line => (findHeader?_found phrases line).eq_none_iff,
    fun front line back hfront hback => ?_, fun line => ?_, fun line k h => ?_⟩
  · have hwords : Text.words (String.ofList (front ++ line ++ back)) =
        Text.words (String.ofList line) := by
      rw [Text.words, Text.words, String.toList_ofList, String.toList_ofList,
        Text.wordsOf_append_right _ hback, Text.wordsOf_append_left hfront]
    rw [findHeader?, findHeader?, hwords]
  · exact findHeader?_filter fun p _ hopens => decide_eq_true hopens.kind
  · obtain ⟨p, hp, rfl⟩ := (findHeader?_found phrases line).eq_some_iff k |>.mp h
    exact hp.accepted.kind

/-- The longer heading is found, with white space around the line. -/
theorem findHeader?_first_longest_outline :
    let phrases : List Phrase :=
      [⟨"", .scenario, ["Scenario"]⟩, ⟨"", .outline, ["Scenario", "Outline"]⟩]
    let found : Keyword := ⟨["Scenario", "Outline"], Language.parse "", .outline⟩
    (ofPhrases phrases).findHeader? "scenario  OUTLINE: x" = some found ∧
      (∃ p, FirstLongest Phrase.size (·.OpensHeader (Text.words "scenario  OUTLINE: x"))
        phrases p ∧ found = p.keyword) ∧
      (ofPhrases phrases).findHeader? (String.ofList ("\t".toList ++
        "scenario  OUTLINE: x".toList ++ " ".toList)) = some found := by
  intro phrases found
  have hfound : (ofPhrases phrases).findHeader? "scenario  OUTLINE: x" = some found := by
    decide +kernel
  obtain ⟨hsome, -, hblank, -, -⟩ := findHeader?_first_longest phrases
  have hspaced := hblank "\t".toList "scenario  OUTLINE: x".toList " ".toList
    (List.forall_mem_singleton.mpr (by decide)) (List.forall_mem_singleton.mpr (by decide))
  rw [String.ofList_toList, hfound] at hspaced
  exact ⟨hfound, (hsome _ _).mp hfound, hspaced⟩

/-- The lone asterisk heads a line but is not a heading. -/
theorem asterisk_not_header :
    ¬∀ phrases line, (ofPhrases phrases).findHeader? line = none →
      ∀ p ∈ phrases, p.kind ≠ .step → ¬p.Heads (Text.words line) := by
  intro h
  let p : Phrase := ⟨"", .feature, ["*"]⟩
  have hnone : (ofPhrases [p]).findHeader? "*: x" = none := by decide +kernel
  have hwords : Text.words "*: x" = ["*:", "x"] := by decide +kernel
  refine h [p] "*: x" hnone p List.mem_cons_self (by decide) ?_
  exact ⟨[], "*", [], "*:", ["x"], by decide +kernel, hwords, rfl, [], by decide +kernel⟩

end Lexicon
end Stepwise
