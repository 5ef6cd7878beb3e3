import Stepwise.Proofs.BoundedRegistries
import Stepwise.Proofs.LongestPhrases
import Stepwise.Proofs.SpelledTrees

/-!
# Shapes of one payload

Keywords can be declared by language and category, or in entries that name both; a phrase
can be a text or a list of words; and step definitions can be members under their keys or
items with a key of their own. Each shape is described as a JSON value, and what is proved
holds of every writing of that value.

What a shape declares is named on its own, as a list of phrases or definitions in order.
Every shape of one declaration is read as that list. So it is the same for all of them, and
the order in which the first of two equal phrases or keys is found is too.
-/
namespace Stepwise

open Yaml (Node Scalar)

namespace Json

/-! ## Parts of a writing -/

section
variable {n : Node}

theorem SpelledAs.text?_string {text : String} (h : (Json.string text).SpelledAs n) :
    n.text? = some (some text) := by
  cases h with
  | string hv => rcases scalarValue?_of_string hv with hv | ⟨_, hv⟩ <;> rw [Node.text?, hv]

/-- Every scalar can be read as a text, or as nothing. -/
theorem SpelledAs.text?_scalar {v : Json} (h : v.SpelledAs n) (hs : v.IsScalar) :
    ∃ text, n.text? = some text := by
  cases h with
  | null hv => exact ⟨none, by rw [Node.text?, hv]⟩
  | @bool _ _ b => cases b <;> exact ⟨_, rfl⟩
  | @number line _ text =>
      have htree : (Json.number text).HasTree (.scalar line (Scalar.plainTag text) _ text) :=
        .number
      obtain ⟨found, hfound⟩ := htree.text?_eq trivial
      exact ⟨found, hfound⟩
  | @string _ _ _ text hv =>
      exact ⟨some text, SpelledAs.text?_string (.string hv)⟩
  | array _ => exact hs.elim
  | object _ _ => exact hs.elim

theorem SpelledAs.int?_integer {text : String} {k : Int} (h : (Json.number text).SpelledAs n)
    (hk : PlainInteger text k) : n.int? = some (some k) := by
  cases h with
  | number =>
      have hle : k ≤ Number.greatest64 := by
        cases hk with
        | written _ _ hfits =>
            simp only [Number.fits64, Bool.and_eq_true, decide_eq_true_eq] at hfits
            exact hfits.2
      rw [Node.int?, Scalar.plainTag_of_plainInteger hk, Scalar.scalarValue?_of_plainInteger hk]
      simp only [hle, if_true]

end
end Json

namespace Payload
open Json

theorem mapM_eq_ok {α β ε : Type} {f : α → Except ε β} {xs : List α} {ys : List β}
    (h : List.Forall₂ (fun y x => f x = .ok y) ys xs) : xs.mapM f = .ok ys := by
  induction h with
  | nil => rfl
  | cons hxy _ ih =>
      rw [List.mapM_cons, hxy, ih]
      rfl

section
variable {n : Node} {texts : List String}

theorem writtenTexts_strings (h : (ofStrings texts).SpelledAs n) : writtenTexts n = .ok texts := by
  cases h with
  | array hitems =>
      rw [List.forall₂_map_left_iff] at hitems
      rw [writtenTexts]
      refine mapM_eq_ok (hitems.imp fun text item hitem => ?_)
      cases hitem
      rfl

theorem texts?_strings (h : (ofStrings texts).SpelledAs n) : n.texts? = some texts := by
  cases h with
  | array hitems =>
      rw [List.forall₂_map_left_iff] at hitems
      rw [Node.texts?]
      induction hitems with
      | nil => rfl
      | cons hitem _ ih => rw [Node.textItems?, hitem.text?_string, ih]

end

/-! ## Fields -/

/-- What a member gives where a text is wanted. An empty text can be left out or be a null. -/
def GivesText (member : Option Json) (text : String) : Prop :=
  member = some (.string text) ∨ (member = none ∨ member = some .null) ∧ text = ""

/-- What a member gives where a whole number is wanted. -/
def GivesWhole (member : Option Json) (k : Int) : Prop :=
  (∃ text, member = some (.number text) ∧ PlainInteger text k) ∨
    (member = none ∨ member = some .null) ∧ k = 0

section
variable {members : List (String × Json)} {entries : List (String × Node)}
  (h : List.Forall₂ (fun m e => m.1 = e.1 ∧ m.2.SpelledAs e.2) members entries) {name : String}
include h

theorem textField_absent (hm : members.lookup name = none ∨ members.lookup name = some .null) :
    Yaml.textField entries name = some "" := by
  rw [Yaml.textField]
  rcases lookup_of_forall₂ h name with ⟨-, he⟩ | ⟨v, n, hv, he, hn⟩
  · rw [he]
  · rw [hv] at hm
    obtain rfl : v = .null := by simpa using hm
    cases hn with
    | null hnull => simp only [he, Node.text?, hnull, Option.map_some, Option.getD_none]

theorem textField_gives {text : String} (ht : GivesText (members.lookup name) text) :
    Yaml.textField entries name = some text := by
  rcases ht with ht | ⟨hm, rfl⟩
  · rw [Yaml.textField]
    rcases lookup_of_forall₂ h name with ⟨hv, -⟩ | ⟨v, n, hv, he, hn⟩
    · rw [hv] at ht
      cases ht
    · rw [hv] at ht
      cases ht
      simp only [he, hn.text?_string, Option.map_some, Option.getD_some]
  · exact textField_absent h hm

/-- A member that is a scalar can be read as some text. -/
theorem textField_scalar (hs : ∀ v, members.lookup name = some v → v.IsScalar) :
    ∃ text, Yaml.textField entries name = some text := by
  rcases lookup_of_forall₂ h name with ⟨hv, -⟩ | ⟨v, n, hv, he, hn⟩
  · exact ⟨"", textField_absent h (.inl hv)⟩
  · obtain ⟨text, htext⟩ := hn.text?_scalar (hs v hv)
    exact ⟨text.getD "", by rw [Yaml.textField, he]; simp only [htext, Option.map_some]⟩

theorem intField_gives {k : Int} (hk : GivesWhole (members.lookup name) k) :
    Yaml.intField entries name = some k := by
  rw [Yaml.intField]
  rcases lookup_of_forall₂ h name with ⟨hv, he⟩ | ⟨v, n, hv, he, hn⟩
  · rw [hv] at hk
    obtain rfl : k = 0 := by simpa [GivesWhole] using hk
    rw [he]
  · rw [hv] at hk
    rcases hk with ⟨text, hnumber, hk⟩ | ⟨hnull, rfl⟩
    · cases hnumber
      simp only [he, hn.int?_integer hk, Option.map_some, Option.getD_some]
    · obtain rfl : v = .null := by simpa using hnull
      cases hn with
      | null hnull => simp only [he, Node.int?, hnull, Option.map_some, Option.getD_none]

theorem textsField_strings {texts : List String}
    (ht : members.lookup name = some (ofStrings texts)) :
    Yaml.textsField entries name = some texts := by
  rw [Yaml.textsField]
  rcases lookup_of_forall₂ h name with ⟨hv, -⟩ | ⟨v, n, hv, he, hn⟩
  · rw [hv] at ht
    cases ht
  · rw [hv] at ht
    cases ht
    rw [he]
    exact texts?_strings hn

end

/-! ## Keywords by language and in entries -/

def declaredPhrases (language : String) (category : String × List String) : List Phrase :=
  match Kind.ofCategory? category.1 with
  | none => []
  | some kind => category.2.map fun phrase => ⟨language, kind, [phrase]⟩

/-- Languages as members, with their categories as members. -/
def languageMap (languages : List (String × List (String × List String))) : Json :=
  .object (languages.map fun l => (l.1, .object (l.2.map fun c => (c.1, ofStrings c.2))))

/-- An entry that names its language and its category. -/
def IsEntryOf (declared : String × String × List String) (v : Json) : Prop :=
  ∃ members, v = .object members ∧ members.Perm [("language", .string declared.1),
    ("kind", .string declared.2.1), ("phrases", ofStrings declared.2.2)]

theorem categoryPhrases_spelled {language : String} {c : String × List String}
    {member : Node × Node} (h : SpelledMember (c.1, ofStrings c.2) member) :
    categoryPhrases language member = .ok (declaredPhrases language c) := by
  rw [categoryPhrases, declaredPhrases, h.1.2]
  cases Kind.ofCategory? c.1 with
  | none => rfl
  | some kind =>
      simp only [writtenTexts_strings h.2]
      rfl

theorem languagePhrases_spelled {l : String × List (String × List String)} {member : Node × Node}
    (h : SpelledMember (l.1, .object (l.2.map fun c => (c.1, ofStrings c.2))) member) :
    languagePhrases member = .ok (l.2.flatMap (declaredPhrases l.1)) := by
  obtain ⟨k, n⟩ := member
  obtain ⟨⟨-, hname⟩, hcategories⟩ := h
  obtain ⟨line, tag, nodes, rfl, hnodes⟩ := hcategories.members
  rw [List.forall₂_map_left_iff] at hnodes
  have hread : nodes.mapM (categoryPhrases l.1) = .ok (l.2.map (declaredPhrases l.1)) := by
    refine mapM_eq_ok ?_
    rw [List.forall₂_map_left_iff]
    exact hnodes.imp fun c node hc => categoryPhrases_spelled hc
  change k.value = l.1 at hname
  simp only [languagePhrases, hname, hread]
  rfl

theorem keywords_languageMap {languages : List (String × List (String × List String))} {n : Node}
    (h : (languageMap languages).SpelledAs n) :
    keywords (some n) = .ok (languages.flatMap fun l => l.2.flatMap (declaredPhrases l.1)) := by
  obtain ⟨line, tag, nodes, rfl, hnodes⟩ := h.members
  rw [List.forall₂_map_left_iff] at hnodes
  have hread : nodes.mapM languagePhrases =
      .ok (languages.map fun l => l.2.flatMap (declaredPhrases l.1)) := by
    refine mapM_eq_ok ?_
    rw [List.forall₂_map_left_iff]
    exact hnodes.imp fun l node hl => languagePhrases_spelled hl
  rw [keywords, hread]
  rfl

theorem listedPhrases_entry {declared : String × String × List String} {v : Json} {n : Node}
    (hv : IsEntryOf declared v) (h : v.SpelledAs n)
    (hknown : (Kind.ofCategory? declared.2.1).isSome = true) :
    listedPhrases n = .ok (declaredPhrases declared.1 declared.2) := by
  obtain ⟨members, rfl, hperm⟩ := hv
  have hnames : (members.map Prod.fst).Nodup := by
    rw [(hperm.map Prod.fst).nodup_iff]
    simp
  have hlookup {m : String × Json} (hm : m ∈ [("language", .string declared.1),
      ("kind", .string declared.2.1), ("phrases", ofStrings declared.2.2)]) :
      members.lookup m.1 = some m.2 := lookup_of_mem hnames (hperm.mem_iff.mpr hm)
  obtain ⟨entries, hread, hentries⟩ := h.entries? hnames
  obtain ⟨line, tag, nodes, rfl, -⟩ := h.members
  have hlanguage := textField_gives hentries
    (.inl (hlookup (m := ("language", .string declared.1)) (by simp)))
  have hname := textField_gives hentries
    (.inl (hlookup (m := ("kind", .string declared.2.1)) (by simp)))
  have hphrases := textsField_strings hentries
    (hlookup (m := ("phrases", ofStrings declared.2.2)) (by simp))
  obtain ⟨kind, hkind⟩ := Option.isSome_iff_exists.mp hknown
  have hempty : declared.2.1.isEmpty = false := by
    rw [← Bool.not_eq_true, String.isEmpty_iff]
    intro hempty
    have hnone : Kind.ofCategory? "" = none := by decide +kernel
    rw [hempty, hnone] at hkind
    cases hkind
  simp only [listedPhrases, entryPhrases, hread, orField, bind, Except.bind, Option.getD_some,
    hlanguage, hname, hphrases, entryKind, hempty, Bool.false_eq_true, if_false, hkind]
  simp only [declaredPhrases, hkind]
  rfl

/-- The categories of all languages in order, each with the name of its language. -/
def categoriesOf (languages : List (String × List (String × List String))) :
    List (String × String × List String) :=
  languages.flatMap fun l => l.2.map fun c => (l.1, c)

theorem keywords_entries {declared : List (String × String × List String)} {entries : List Json}
    {n : Node} (hentries : List.Forall₂ IsEntryOf declared entries)
    (hknown : ∀ d ∈ declared, (Kind.ofCategory? d.2.1).isSome = true)
    (h : (Json.array entries).SpelledAs n) :
    keywords (some n) = .ok (declared.flatMap fun d => declaredPhrases d.1 d.2) := by
  cases h with
  | @array line tag _ nodes hnodes =>
      have hread : nodes.mapM listedPhrases =
          .ok (declared.map fun d => declaredPhrases d.1 d.2) := by
        refine mapM_eq_ok ?_
        rw [List.forall₂_map_left_iff]
        induction hentries generalizing nodes with
        | nil =>
            cases hnodes
            exact .nil
        | cons hd _ ih =>
            rw [List.forall_mem_cons] at hknown
            cases hnodes with
            | cons hn hrest => exact .cons (listedPhrases_entry hd hn hknown.1) (ih hknown.2 hrest)
      rw [keywords, hread]
      rfl

theorem flatMap_categoriesOf (languages : List (String × List (String × List String))) :
    (categoriesOf languages).flatMap (fun d => declaredPhrases d.1 d.2) =
      languages.flatMap fun l => l.2.flatMap (declaredPhrases l.1) := by
  rw [categoriesOf, List.flatMap_assoc]
  refine List.flatMap_congr fun l _ => ?_
  rw [List.flatMap_map]

/-! ## Phrases as texts and as lists of words -/

/-- A phrase as a text, or as a list of texts with the same words in all. -/
def IsPhraseOf (phrase : String) (v : Json) : Prop :=
  v = .string phrase ∨
    ∃ parts, v = ofStrings parts ∧ parts.flatMap Text.words = Text.words phrase

theorem listedPhrases_phrase {phrase : String} {v : Json} {n : Node} (hv : IsPhraseOf phrase v)
    (h : v.SpelledAs n) : ∃ p, listedPhrases n = .ok [p] ∧
      p.keyword = ⟨Text.words phrase, Language.parse "", .step⟩ := by
  rcases hv with rfl | ⟨parts, rfl, hwords⟩
  · cases h
    exact ⟨⟨"", .step, [phrase]⟩, rfl, by simp [Phrase.keyword, Phrase.plainWords]⟩
  · have htexts := writtenTexts_strings h
    cases h with
    | array _ =>
        refine ⟨⟨"", .step, parts⟩, by rw [listedPhrases, htexts]; rfl, ?_⟩
        rw [Phrase.keyword, Phrase.plainWords, hwords]

theorem keywords_phrases {phrases : List String} {items : List Json} {n : Node}
    (hitems : List.Forall₂ IsPhraseOf phrases items) (h : (Json.array items).SpelledAs n) :
    ∃ ps, keywords (some n) = .ok ps ∧ ps.map Phrase.keyword =
      phrases.map fun phrase => ⟨Text.words phrase, Language.parse "", .step⟩ := by
  cases h with
  | @array line tag _ nodes hnodes =>
      have hread : ∃ ps : List Phrase, nodes.mapM listedPhrases = .ok (ps.map fun p => [p]) ∧
          ps.map Phrase.keyword =
            phrases.map fun phrase => ⟨Text.words phrase, Language.parse "", .step⟩ := by
        induction hitems generalizing nodes with
        | nil =>
            cases hnodes
            exact ⟨[], rfl, rfl⟩
        | cons hv _ ih =>
            cases hnodes with
            | cons hn hrest =>
                obtain ⟨p, hp, hkeyword⟩ := listedPhrases_phrase hv hn
                obtain ⟨ps, hps, hkeywords⟩ := ih hrest
                refine ⟨p :: ps, ?_, by rw [List.map_cons, List.map_cons, hkeyword, hkeywords]⟩
                rw [List.mapM_cons, hp, hps]
                rfl
      obtain ⟨ps, hps, hkeywords⟩ := hread
      refine ⟨ps, ?_, hkeywords⟩
      rw [keywords, hps]
      exact congrArg Except.ok (List.flatMap_singleton' ps)

/-! ## Definitions under their keys and with their keys -/

/-- The members of a definition apart from its key, in any order. -/
structure DefinesStep (d : StepDefinition) (members : List (String × Json)) : Prop where
  nodup : (members.map Prod.fst).Nodup
  label : GivesText (members.lookup "label") d.label
  keyword : GivesText (members.lookup "keyword") d.keyword
  insertText : GivesText (members.lookup "insertText") d.insertText
  documentation : GivesText (members.lookup "documentation") d.documentation
  group : GivesText (members.lookup "section") d.group
  sortText : GivesText (members.lookup "sortText") d.sortText
  kind : GivesWhole (members.lookup "kind") d.kind

/-- A definition under its key, with any scalar for a key of its own. -/
def IsKeyedStep (d : StepDefinition) (m : String × Json) : Prop :=
  m.1 = d.key ∧ ∃ members, m.2 = .object members ∧ DefinesStep d members ∧
    ∀ v, members.lookup "key" = some v → v.IsScalar

def IsListedStep (d : StepDefinition) (v : Json) : Prop :=
  ∃ members, v = .object members ∧ DefinesStep d members ∧
    GivesText (members.lookup "key") d.key

/-- The key is the text of the member, which any scalar has. -/
theorem stepDefinition_spelled {d : StepDefinition} {members : List (String × Json)} {n : Node}
    (hd : DefinesStep d members) (hkey : ∀ v, members.lookup "key" = some v → v.IsScalar)
    (h : (Json.object members).SpelledAs n) :
    ∃ key, stepDefinition n = .ok { d with key } ∧
      ∀ text, GivesText (members.lookup "key") text → key = text := by
  obtain ⟨entries, hread, hentries⟩ := h.entries? hd.nodup
  obtain ⟨key, hkey⟩ := textField_scalar hentries hkey
  refine ⟨key, ?_, fun text htext => ?_⟩
  · simp only [stepDefinition, hread, orField, bind, Except.bind, Option.getD_some, hkey,
      textField_gives hentries hd.label, textField_gives hentries hd.keyword,
      textField_gives hentries hd.insertText, textField_gives hentries hd.documentation,
      textField_gives hentries hd.group, textField_gives hentries hd.sortText,
      intField_gives hentries hd.kind]
    rfl
  · rw [textField_gives hentries htext] at hkey
    exact (Option.some.inj hkey).symm

theorem isScalar_of_givesText {member : Option Json} {text : String} (h : GivesText member text)
    {v : Json} (hv : member = some v) : v.IsScalar := by
  rcases h with h | ⟨h, -⟩
  · cases hv.symm.trans h
    trivial
  · rw [hv] at h
    obtain rfl : v = .null := by simpa using h
    trivial

theorem ofList_of_nodup {defs : List StepDefinition} (h : (defs.map (·.key)).Nodup) :
    Steps.ofList defs = ⟨defs⟩ := by
  have hloop : ∀ rest before : List StepDefinition, ((before ++ rest).map (·.key)).Nodup →
      rest.foldl (fun all d => Steps.put d all) before = before ++ rest := by
    intro rest
    -- no key of the rest is known before its turn
    induction rest with
    | nil => simp
    | cons d rest ih =>
        intro before hnodup
        have hnew : ∀ s ∈ before, s.key ≠ d.key := by
          rw [List.map_append, List.nodup_append] at hnodup
          intro s hs
          exact hnodup.2.2 s.key (List.mem_map_of_mem hs) d.key (by simp)
        rw [List.foldl_cons, Bounded.put_of_new hnew, ih (before ++ [d]) (by simpa using hnodup)]
        simp
  rw [Steps.ofList, hloop defs [] h, List.nil_append]

theorem steps_keyed {defs : List StepDefinition} {members : List (String × Json)} {n : Node}
    (hdefs : List.Forall₂ IsKeyedStep defs members) (h : (Json.object members).SpelledAs n) :
    steps (some n) = .ok (Steps.ofList defs) := by
  obtain ⟨line, tag, nodes, rfl, hnodes⟩ := h.members
  have hread : nodes.mapM (fun m => do
      let d ← stepDefinition m.2
      return { d with key := m.1.value }) = .ok defs := by
    refine mapM_eq_ok ?_
    clear h
    induction hdefs generalizing nodes with
    | nil =>
        cases hnodes
        exact .nil
    | cons hd _ ih =>
        obtain ⟨hname, fields, hfields, hdefines, hkey⟩ := hd
        cases hnodes with
        | cons hn hrest =>
            obtain ⟨key, hread, -⟩ := stepDefinition_spelled hdefines hkey (hfields ▸ hn.2)
            refine .cons ?_ (ih _ hrest)
            rw [hread, hn.1.2, hname]
            rfl
  rw [steps, hread]
  rfl

theorem steps_listed {defs : List StepDefinition} {items : List Json} {n : Node}
    (hdefs : List.Forall₂ IsListedStep defs items) (h : (Json.array items).SpelledAs n) :
    steps (some n) = .ok (Steps.ofList defs) := by
  cases h with
  | @array line tag _ nodes hnodes =>
      have hread : nodes.mapM stepDefinition = .ok defs := by
        refine mapM_eq_ok ?_
        induction hdefs generalizing nodes with
        | nil =>
            cases hnodes
            exact .nil
        | cons hd _ ih =>
            obtain ⟨members, rfl, hdefines, hkey⟩ := hd
            cases hnodes with
            | cons hn hrest =>
                obtain ⟨key, hread, hown⟩ := stepDefinition_spelled hdefines
                  (fun v => isScalar_of_givesText hkey) hn
                refine .cons ?_ (ih hrest)
                rw [hread, hown _ hkey]
      rw [steps, hread]
      rfl

/-! ## One declaration, several shapes -/

/-- Languages with their categories declare the same phrases in the same order as entries
that name both. A phrase declared as a text and one declared in parts with the same words
are found alike. Definitions under their keys make the same registry in the same order as
definitions with their keys, whatever text the former have for a key of their own. -/
theorem shapes_agree :
    (∀ languages : List (String × List (String × List String)),
      (∀ l ∈ languages, ∀ c ∈ l.2, (Kind.ofCategory? c.1).isSome = true) →
      ∀ entries n m, List.Forall₂ IsEntryOf (categoriesOf languages) entries →
        (languageMap languages).SpelledAs n → (Json.array entries).SpelledAs m →
          keywords (some n) =
            .ok ((categoriesOf languages).flatMap fun d => declaredPhrases d.1 d.2) ∧
          keywords (some m) = keywords (some n)) ∧
    (∀ phrases items n m, List.Forall₂ IsPhraseOf phrases items →
      (ofStrings phrases).SpelledAs n → (Json.array items).SpelledAs m →
        ∃ ps qs, keywords (some n) = .ok ps ∧ keywords (some m) = .ok qs ∧
          (∀ words, (Lexicon.ofPhrases qs).find? words = (Lexicon.ofPhrases ps).find? words) ∧
          ∀ line, (Lexicon.ofPhrases qs).findHeader? line =
            (Lexicon.ofPhrases ps).findHeader? line) ∧
    (∀ defs : List StepDefinition, (defs.map (·.key)).Nodup →
      ∀ members items n m, List.Forall₂ IsKeyedStep defs members →
        List.Forall₂ IsListedStep defs items → (Json.object members).SpelledAs n →
        (Json.array items).SpelledAs m →
          steps (some n) = .ok ⟨defs⟩ ∧ steps (some m) = .ok ⟨defs⟩) := by
  refine ⟨fun languages hknown entries n m hentries hn hm => ?_,
    fun phrases items n m hitems hn hm => ?_,
    fun defs hnodup members items n m hmembers hitems hn hm => ?_⟩
  · have hdeclared : ∀ d ∈ categoriesOf languages, (Kind.ofCategory? d.2.1).isSome = true := by
      intro d hd
      obtain ⟨l, hl, hd⟩ := List.mem_flatMap.mp hd
      obtain ⟨c, hc, rfl⟩ := List.mem_map.mp hd
      exact hknown l hl c hc
    rw [keywords_entries hentries hdeclared hm, flatMap_categoriesOf, keywords_languageMap hn]
    exact ⟨rfl, rfl⟩
  · have hplain : List.Forall₂ IsPhraseOf phrases (phrases.map Json.string) := by
      rw [List.forall₂_map_right_iff, List.forall₂_same]
      exact fun phrase _ => .inl rfl
    obtain ⟨ps, hps, hkeywords⟩ := keywords_phrases hplain hn
    obtain ⟨qs, hqs, hsame⟩ := keywords_phrases hitems hm
    have hlexicon := Lexicon.ofPhrases_congr (hsame.trans hkeywords.symm)
    exact ⟨ps, qs, hps, hqs, fun words => by rw [hlexicon], fun line => by rw [hlexicon]⟩
  · rw [steps_keyed hmembers hn, steps_listed hitems hm, ofList_of_nodup hnodup]
    exact ⟨rfl, rfl⟩

/-- Two languages, a phrase in two parts, and a definition with a key of its own that is not
its key. -/
theorem shapes_agree_given :
    let languages := [("en", [("Given", ["Given "]), ("scenario", ["Scenario", "Example"])]),
      ("ru", [("when", ["Когда "])])]
    let entries := [Json.object [("kind", .string "Given"), ("language", .string "en"),
        ("phrases", ofStrings ["Given "])],
      .object [("language", .string "en"), ("kind", .string "scenario"),
        ("phrases", ofStrings ["Scenario", "Example"])],
      .object [("phrases", ofStrings ["Когда "]), ("language", .string "ru"),
        ("kind", .string "when")]]
    let d : StepDefinition := { StepDefinition.blank with key := "a", label := "l", kind := -3 }
    let keyed := Json.object [("label", .string "l"), ("key", .bool true), ("kind", .number "-3")]
    let listed := Json.object [("kind", .number "-3"), ("key", .string "a"),
      ("label", .string "l"), ("sortText", .null)]
    keywords (some (languageMap languages).tree) = .ok [⟨"en", .step, ["Given "]⟩,
        ⟨"en", .scenario, ["Scenario"]⟩, ⟨"en", .scenario, ["Example"]⟩,
        ⟨"ru", .step, ["Когда "]⟩] ∧
      keywords (some (Json.array entries).tree) = keywords (some (languageMap languages).tree) ∧
      (∃ ps qs, keywords (some (ofStrings ["and then"]).tree) = .ok ps ∧
        keywords (some (Json.array [ofStrings [" and", "then"]]).tree) = .ok qs ∧
        (Lexicon.ofPhrases qs).find? ["And", "then"] =
          (Lexicon.ofPhrases ps).find? ["And", "then"]) ∧
      steps (some (Json.object [("a", keyed)]).tree) = .ok ⟨[d]⟩ ∧
      steps (some (Json.array [listed]).tree) = .ok ⟨[d]⟩ := by
  intro languages entries d keyed listed
  have hknown : ∀ l ∈ languages, ∀ c ∈ l.2, (Kind.ofCategory? c.1).isSome = true := by
    decide +kernel
  have hentries : List.Forall₂ IsEntryOf (categoriesOf languages) entries := by
    refine .cons ⟨_, rfl, ?_⟩ (.cons ⟨_, rfl, .refl _⟩ (.cons ⟨_, rfl, ?_⟩ .nil))
    · exact .swap _ _ _
    · exact (List.Perm.swap _ _ _).trans (.cons _ (.swap _ _ _))
  have hphrase : List.Forall₂ IsPhraseOf ["and then"] [ofStrings [" and", "then"]] :=
    .cons (.inr ⟨_, rfl, by decide +kernel⟩) .nil
  have hdigits : IsDigits ['3'] := ⟨List.cons_ne_nil _ _, by simp⟩
  have hkind : PlainInteger "-3" (-3) :=
    .written (.inr rfl) (.digits (by decide) hdigits) (by decide)
  have hkeyed : List.Forall₂ IsKeyedStep [d] [("a", keyed)] := by
    refine .cons ⟨rfl, _, rfl, ?_, ?_⟩ .nil
    · refine ⟨?_, ?_, ?_, ?_, ?_, ?_, ?_, .inl ⟨_, rfl, hkind⟩⟩ <;>
        simp [GivesText, List.lookup, d, StepDefinition.blank]
    · simp [List.lookup, IsScalar]
  have hlisted : List.Forall₂ IsListedStep [d] [listed] := by
    refine .cons ⟨_, rfl, ?_, ?_⟩ .nil
    · refine ⟨?_, ?_, ?_, ?_, ?_, ?_, ?_, .inl ⟨_, rfl, hkind⟩⟩ <;>
        simp [GivesText, List.lookup, d, StepDefinition.blank]
    · simp [GivesText, List.lookup, d]
  obtain ⟨hlanguages, hparts, hsteps⟩ := shapes_agree
  obtain ⟨hmap, hlist⟩ := hlanguages languages hknown entries _ _ hentries
    (hasTree_tree _).spelledAs (hasTree_tree _).spelledAs
  obtain ⟨ps, qs, hps, hqs, hfind, -⟩ := hparts _ _ _ _ hphrase (hasTree_tree _).spelledAs
    (hasTree_tree _).spelledAs
  have hboth := hsteps [d] (by decide) _ _ _ _ hkeyed hlisted
    (hasTree_tree _).spelledAs (hasTree_tree _).spelledAs
  refine ⟨hmap.trans ?_, hlist, ⟨ps, qs, hps, hqs, hfind _⟩, hboth⟩
  decide +kernel

end Payload
end Stepwise
