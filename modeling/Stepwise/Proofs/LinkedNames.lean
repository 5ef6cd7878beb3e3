import Stepwise.Proofs.CompletedVariables
import Stepwise.Proofs.JsonWriting
import Stepwise.Proofs.MentionedNames
import Stepwise.Proofs.NumberText
import Stepwise.Proofs.RequestReplies
import Stepwise.Reply.Basic

/-!
# Names of links

A link covers a quoted token of its line and carries the text between the quotes as its
name. A host that follows the link sends the name back, alone or in the link as it was
written, and both are read as the same name: a string is read by itself, and a record of the
one field "data" passes over the other members of a link.

The name is then looked up in the same table, but a blank name is not looked up at all,
although the table may have it and the link may lead somewhere.
-/
namespace Stepwise

open Json
open Json.Reader

/-! ## The token of a link -/

namespace Step.Placeholder

/-- The characters between the columns of a placeholder are its text. -/
theorem text_between {line : String} {p : Placeholder} (h : p ∈ placeholders line) :
    1 ≤ p.start ∧
      (line.toList.drop (p.start - 1)).take (p.stop - p.start) = p.text.toList := by
  obtain ⟨before, after, hpieces, hstart⟩ := mem_placeholdersFrom_iff.mp h
  have hline : line.toList = textOf before ++ (p.text.toList ++ textOf after) := by
    rw [← textOf_pieces line.toList, hpieces, textOf_append, toList_text]
    rfl
  have hbefore : p.start - 1 = (textOf before).length := by omega
  have hwidth : p.stop - p.start = p.text.toList.length := by
    rw [stop_eq, String.length_toList]
    omega
  refine ⟨by omega, ?_⟩
  rw [hline, hbefore, hwidth, List.drop_left, List.take_left]

end Step.Placeholder

/-! ## The data of a request -/

theorem Json.Reader.valueOf_ignored {σ : Type} (token : List Char) (s : σ) :
    ignored.valueOf token s = s := by
  rw [valueOf]
  cases hr : ignored s token with
  | none => rfl
  | some p => exact ignored_keeps s token p.1 p.2 hr

namespace Envelope
variable {depth : Nat} {ms : List Member} {m : Member}

theorem asciiLower_data : asciiLower "data" = "data" := by decide

theorem member_data (hm : m.isNamed "data" = true) :
    member fields m.name = (field "data" data (fun e v => { e with data := v }) raw).read := by
  rw [Member.isNamed, beq_iff_eq] at hm
  rw [member, hm]
  rfl

theorem data_afterMember (hd : depth ≤ fieldDepth) (hv : IsValue depth m.value.token)
    (e : Envelope) : (afterMember fields e m).data =
      if m.isNamed "data" then some (String.ofList m.value.token) else e.data := by
  by_cases hm : m.isNamed "data" = true
  · have hread := raw_append hv hd e.data ends_nil
    rw [List.append_nil] at hread
    rw [if_pos hm, afterMember, member_data hm, valueOf_field (takes_raw hv hd), valueOf, hread]
    rfl
  · rw [if_neg hm]
    refine afterMember_keeps (fun f hf hname => ?_) e
    simp only [fields, List.mem_cons, List.not_mem_nil, or_false] at hf
    rcases hf with rfl | rfl | rfl | rfl | rfl | rfl | rfl | rfl | rfl | rfl | rfl
    -- all fields but the data itself
    any_goals exact keeps_field fun _ _ => rfl
    exact absurd (beq_iff_eq.mpr (hname.symm.trans asciiLower_data)) hm

/-- The data of a request is its last member of that name, as it is written. -/
theorem data_ofMembers (hd : depth ≤ fieldDepth) (hv : ∀ m ∈ ms, IsValue depth m.value.token) :
    (ofMembers ms).data =
      (ms.reverse.find? (·.isNamed "data")).map fun m => String.ofList m.value.token := by
  have hstep : ∀ m ∈ ms, ∀ e, (afterMember fields e m).data =
      if m.isNamed "data" then some (String.ofList m.value.token) else e.data :=
    fun m hm e => data_afterMember hd (hv m hm) e
  rw [ofMembers, Head.get_foldl hstep]
  cases ms.reverse.find? (·.isNamed "data") <;> rfl

end Envelope

/-! ## Names that are sent back -/

structure Json.NamesLink (ms : List Member) (name : String) : Prop where
  strings : ∀ m ∈ ms, m.isNamed "data" = true → ∃ text, IsString m.value.token text
  last : ∃ m, ms.reverse.find? (·.isNamed "data") = some m ∧ IsString m.value.token name

namespace Envelope

def linkFields : List (Json.Reader.Field String) :=
  [field "data" (fun name => name) (fun _ name => name) text]

section
variable {depth : Nat} {ms : List Member} {m : Member} {token : List Char} {name : String}

theorem linkName_string (h : IsString token name) :
    linkName (some (String.ofList token)) = name := by
  have hvalue : IsValue 0 (String.ofList token).toList := by
    rw [String.toList_ofList]
    exact .string h
  have hread := text_string h "" []
  rw [List.append_nil] at hread
  have hrun : text.run "" (String.ofList token) = some name := by
    rw [run, hvalue.upToNul_eq, String.toList_ofList, hread]
    rfl
  simp only [linkName, hrun]

theorem member_linkFields (hm : m.isNamed "data" = true) :
    member linkFields m.name =
      (field "data" (fun name => name) (fun _ name => name) text).read := by
  rw [Member.isNamed, beq_iff_eq] at hm
  exact member_field_of_eq (asciiLower_data.trans hm.symm)

theorem member_linkFields_of_not (hm : ¬m.isNamed "data" = true) :
    member linkFields m.name = ignored := by
  refine member_field_of_ne fun hname => hm ?_
  exact beq_iff_eq.mpr (hname.symm.trans asciiLower_data)

theorem foldl_linkFields (h : NamesLink ms name) :
    ms.foldl (afterMember linkFields) "" = name := by
  have hstep : ∀ m ∈ ms, ∀ s : String, afterMember linkFields s m =
      if m.isNamed "data" then text.valueOf m.value.token "" else s := by
    intro m hm s
    by_cases hdata : m.isNamed "data" = true
    · obtain ⟨t, ht⟩ := h.strings m hm hdata
      rw [if_pos hdata, afterMember, member_linkFields hdata, valueOf_field (takes_string ht),
        valueOf_string ht, valueOf_string ht]
    · rw [if_neg hdata, afterMember, member_linkFields_of_not hdata]
      exact valueOf_ignored _ s
  have hlast := @Head.get_foldl _ _ (fun name => name) _ _ _ _ hstep ""
  obtain ⟨m, hm, hstring⟩ := h.last
  rw [hm] at hlast
  exact hlast.trans (valueOf_string hstring "")

/-- A name is read from an object whose member "data" is that name, whatever its other
members are. -/
theorem linkName_object (hd : depth ≤ fieldDepth) (ho : IsObject depth ms token)
    (h : NamesLink ms name) : linkName (some (String.ofList token)) = name := by
  have hobject : IsObjectText depth ms (String.ofList token).toList := by
    rw [String.toList_ofList]
    exact ho.isObjectText
  have hstring : text.run "" (String.ofList token) = none := by
    rw [run, upToNul_eq hobject, String.toList_ofList]
    cases ho with
    | empty => rw [text_of_ne (by decide) (by decide) (by decide)]
    | members => rw [text_of_ne (by decide) (by decide) (by decide)]
  have hadmits : ∀ m ∈ ms, Admits linkFields m := by
    intro m hm
    by_cases hdata : m.isNamed "data" = true
    · obtain ⟨t, ht⟩ := h.strings m hm hdata
      rw [Admits, member_linkFields hdata]
      exact takes_field _ _ _ (takes_string ht)
    · rw [Admits, member_linkFields_of_not hdata]
      exact takes_ignored (ho.isValue_of_mem hm) hd
  have hsettled : AllSettled linkFields := by
    intro f hf
    rw [List.mem_singleton.mp hf]
    exact settled_field _ _ _ settled_text
  have hrun := run_takes hsettled hobject hadmits ""
  rw [foldl_linkFields h] at hrun
  simp only [linkName, hstring]
  exact congrArg (Option.getD · "") hrun

end
end Envelope

theorem isValue_string (depth : Nat) (text : String) :
    IsValue depth (Json.string text).render.toList := by
  rw [Json.render]
  exact .string (isString_quote text)

theorem token_rendered (m : String × Json) : (rendered m).value.token = m.2.render.toList := rfl

theorem isString_rendered (key text : String) :
    IsString (rendered (key, .string text)).value.token text := by
  rw [token_rendered, Json.render]
  exact isString_quote text

theorem Span.isValue_json (s : Span) : IsValue 1 s.json.render.toList := by
  refine (isObject_render fun m hm => ?_).isValue
  simp only [Span.members, List.mem_cons, List.not_mem_nil, or_false] at hm
  rcases hm with rfl | rfl | rfl | rfl <;> exact .number (Number.isNumber_int _)

/-- What a link says before its name. -/
def Link.frontEntries (l : Link) : List (String × Option Json) :=
  [("range", some l.span.json), ("url", l.target.bind fun t => Json.nonEmpty t.uri),
    ("tooltip", l.target.bind fun t => Json.nonEmpty t.tooltip)]

/-- The members of a link before its name. -/
def Link.front (l : Link) : List (String × Json) :=
  l.frontEntries.filterMap fun (key, v) => v.map fun v => (key, v)

theorem Link.json_eq (l : Link) : l.json = .object (l.front ++ [("data", .string l.name)]) :=
  congrArg Json.object
    (@List.filterMap_append _ _ l.frontEntries [("data", some (.string l.name))] _)

theorem Json.eq_string_of_nonEmpty {text : String} {v : Json} (h : Json.nonEmpty text = some v) :
    v = .string text := by
  unfold Json.nonEmpty at h
  split at h
  · cases h
  · exact (Option.some.inj h).symm

theorem Link.front_cases {l : Link} {m : String × Json} (hm : m ∈ l.front) :
    m = ("range", l.span.json) ∨ ∃ key ∈ ["url", "tooltip"], ∃ text, m = (key, .string text) := by
  obtain ⟨⟨key, value⟩, hgiven, hm⟩ := List.mem_filterMap.mp hm
  obtain ⟨v, rfl, rfl⟩ := Option.map_eq_some_iff.mp hm
  simp only [frontEntries, List.mem_cons, List.not_mem_nil, or_false, Prod.mk.injEq] at hgiven
  rcases hgiven with ⟨rfl, hv⟩ | ⟨rfl, hv⟩ | ⟨rfl, hv⟩
  · exact .inl (congrArg _ (Option.some.inj hv))
  · obtain ⟨t, -, hv⟩ := Option.bind_eq_some_iff.mp hv.symm
    exact .inr ⟨"url", by simp, t.uri, congrArg _ (Json.eq_string_of_nonEmpty hv)⟩
  · obtain ⟨t, -, hv⟩ := Option.bind_eq_some_iff.mp hv.symm
    exact .inr ⟨"tooltip", by simp, t.tooltip, congrArg _ (Json.eq_string_of_nonEmpty hv)⟩

theorem Link.not_isNamed_data_of_front {l : Link} {m : String × Json} (hm : m ∈ l.front) :
    ¬(rendered m).isNamed "data" = true := by
  have hkeys : ∀ key ∈ ["range", "url", "tooltip"], ¬(asciiLower key == "data") = true := by
    decide
  rcases front_cases hm with rfl | ⟨key, hkey, text, rfl⟩
  · exact hkeys "range" List.mem_cons_self
  · exact hkeys key (List.mem_cons_of_mem _ hkey)

/-- A link is written as an object that carries its name. -/
theorem Link.isObject_json (l : Link) :
    ∃ ms, IsObject 1 ms l.json.render.toList ∧ NamesLink ms l.name := by
  have hname := isString_rendered "data" l.name
  rw [l.json_eq]
  refine ⟨_, isObject_render (List.forall_mem_append.mpr ⟨fun m hm => ?_, ?_⟩), ?_, ?_⟩
  · rcases front_cases hm with rfl | ⟨key, -, text, rfl⟩
    · exact l.span.isValue_json
    · exact isValue_string 1 text
  · exact List.forall_mem_singleton.mpr (isValue_string 1 l.name)
  · rw [List.map_append, List.forall_mem_append]
    refine ⟨List.forall_mem_map.mpr fun m hm hdata => ?_, ?_⟩
    · exact absurd hdata (not_isNamed_data_of_front hm)
    · exact List.forall_mem_singleton.mpr fun _ => ⟨_, hname⟩
  · refine ⟨_, ?_, hname⟩
    rw [List.map_append, List.reverse_append]
    exact List.find?_cons_of_pos (beq_iff_eq.mpr Envelope.asciiLower_data)

/-- The two ways in which a host sends the name of a link: as a string, and in the link as it
was written. -/
inductive Link.SentAs (l : Link) : List Char → Prop
  | name {token : List Char} : IsString token l.name → SentAs l token
  | whole : SentAs l l.json.render.toList

theorem Link.SentAs.linkName_eq {l : Link} {token : List Char} (h : l.SentAs token) :
    Envelope.linkName (some (String.ofList token)) = l.name := by
  cases h with
  | name hstring => exact Envelope.linkName_string hstring
  | whole =>
      obtain ⟨ms, hobject, hname⟩ := l.isObject_json
      exact Envelope.linkName_object (by decide) hobject hname

theorem Link.sentAs_rendered (l : Link) : l.SentAs (rendered ("data", l.json)).value.token :=
  .whole

theorem Configuration.linkTarget?_isSome_iff {c : Configuration} {name : String} :
    (c.linkTarget? name).isSome = true ↔
      Text.trim name ≠ "" ∧ (c.imports.find? name).isSome = true := by
  rw [linkTarget?, Ne, ← String.isEmpty_iff]
  cases (Text.trim name).isEmpty <;> simp

theorem Configuration.find?_of_linkTarget? {c : Configuration} {name : String} {t : Target}
    (h : c.linkTarget? name = some t) : c.imports.find? name = some t := by
  unfold linkTarget? at h
  split at h
  · cases h
  · exact h

/-- Links and the data of links agree. A link covers a quoted token, the first of an import line
or one of a step line that is known, and has its inner text for a name. A question for the data
of a link that sends the name of the link back, alone or in the link, asks for that name. It is
answered when the name is not blank and is known, with the target of the link. -/
theorem Session.linkData_agrees (s : Session) {d : Document} {l : Link}
    (hl : l ∈ d.links s.configuration) :
    (∃ (i : Nat) (line : String) (p : Step.Placeholder) (role : Bool),
      d.lines[i]? = some line ∧ l.span = .onLine (i + 1 : Nat) p.start p.stop ∧
      1 ≤ p.start ∧ (line.toList.drop (p.start - 1)).take (p.stop - p.start) = p.text.toList ∧
      p.delimiter.isQuote = true ∧ p.inner = l.name ∧ s.configuration.Mentions line p role) ∧
    ∀ (t : String) (depth : Nat) (ms : List Member) (m : Member), depth + 1 ≤ maxDepth →
      IsObjectText depth ms t.toList → TypeIs ms "GetLinkData" → Envelope.Decodes ms →
      s.store.get? (Envelope.ofMembers ms).uri = some d →
      ms.reverse.find? (·.isNamed "data") = some m → l.SentAs m.value.token →
      Request.decode t =
          .ok (.query (requestId ms) (.linkData (Envelope.ofMembers ms).uri l.name)) ∧
        ∃ answer, (s.processText t).reply = some ⟨requestId ms, answer⟩ ∧
          (answer.isSome = true ↔ Text.trim l.name ≠ "" ∧
            (s.configuration.imports.find? l.name).isSome = true) ∧
          ∀ a, answer = some a → ∃ target, a = .target target ∧ l.target = some target := by
  obtain ⟨mention, hmention, rfl⟩ := List.mem_map.mp hl
  constructor
  · obtain ⟨i, line, hline, hnumber, hmentions⟩ := Document.mem_mentions_iff.mp hmention
    obtain ⟨htoken, hquote⟩ := List.mem_filter.mp hmentions.mem_quotedTokens
    obtain ⟨hstart, htext⟩ := Step.Placeholder.text_between htoken
    refine ⟨i, line, mention.token, mention.isDeclaration, hline, ?_, hstart, htext, hquote, rfl,
      hmentions⟩
    rw [ImportMention.link, hnumber]
  · intro t depth ms m hd ho ht ha hstore hdata hsent
    have hdepth : depth ≤ fieldDepth := Nat.le_sub_of_add_le hd
    obtain ⟨_, hid, _⟩ := run_envelope hdepth ho ht ha
    have hname : Envelope.linkName (Envelope.ofMembers ms).data = mention.name := by
      rw [Envelope.data_ofMembers hdepth (isValue_of_mem ho), hdata]
      exact hsent.linkName_eq
    have hkind : RequestKind.ofName? "GetLinkData" = some (.query .linkData) := by decide
    have hdecode : Request.decode t =
        .ok (.query (requestId ms) (.linkData (Envelope.ofMembers ms).uri mention.name)) := by
      rw [decode_of_decodes hdepth ho ht ha hkind, Envelope.request, hid, Envelope.question,
        hname]
    refine ⟨hdecode, (s.configuration.linkTarget? mention.name).map .target, ?_, ?_, ?_⟩
    · rw [s.processText_of_ok hdecode, process, s.ask_of_open _ rfl hstore, resolve]
    · rw [Option.isSome_map]
      exact Configuration.linkTarget?_isSome_iff
    · intro a hanswer
      obtain ⟨target, htarget, rfl⟩ := Option.map_eq_some_iff.mp hanswer
      exact ⟨target, rfl, Configuration.find?_of_linkTarget? htarget⟩

def linkQuestion (data : Json) : List (String × Json) :=
  [("type", .string "GetLinkData"), ("id", .number "1"), ("uri", .string "inmemory:a"),
    ("data", data)]

/-- A session with one open document, for examples. -/
def Session.opened (c : Configuration) (lines : List String) : Session :=
  (({ initial with configuration := c } : Session).process (.update "inmemory:a" 1 lines)).session

section
variable {v : Json}

theorem isValue_of_mem_linkQuestion (hv : IsValue 2 v.render.toList) :
    ∀ m ∈ linkQuestion v, IsValue 2 m.2.render.toList := by
  have hnumber : IsNumber "1".toList := isNumber_digit (by decide) (by decide)
  intro m hm
  simp only [linkQuestion, List.mem_cons, List.not_mem_nil, or_false] at hm
  rcases hm with rfl | rfl | rfl | rfl
  · exact isValue_string 2 _
  · exact .number hnumber
  · exact isValue_string 2 _
  · exact hv

theorem isObjectText_linkQuestion (hv : IsValue 2 v.render.toList) :
    IsObjectText 2 ((linkQuestion v).map rendered)
      (Json.object (linkQuestion v)).render.toList :=
  (isObject_render (isValue_of_mem_linkQuestion hv)).isObjectText

theorem data_linkQuestion (v : Json) :
    ((linkQuestion v).map rendered).reverse.find? (·.isNamed "data") =
      some (rendered ("data", v)) :=
  List.find?_cons_of_pos (beq_iff_eq.mpr Envelope.asciiLower_data)

theorem typeIs_linkQuestion (v : Json) :
    TypeIs ((linkQuestion v).map rendered) "GetLinkData" := by
  have hkeys : ∀ key ∈ ["id", "uri", "data"], (asciiLower key == "type") = false := by decide
  have htype : (rendered ("type", .string "GetLinkData")).isNamed "type" = true :=
    beq_iff_eq.mpr (by decide : asciiLower "type" = "type")
  refine .of_head htype (isString_rendered _ _) (List.forall_mem_map.mpr fun m hm => ?_)
  exact hkeys m.1 (List.mem_map_of_mem hm)

theorem decodes_linkQuestion (hv : IsValue 2 v.render.toList) :
    Envelope.Decodes ((linkQuestion v).map rendered) := by
  have hvalues := isValue_of_mem_linkQuestion hv
  simp only [linkQuestion, List.forall_mem_cons] at hvalues
  obtain ⟨-, hid, -, hdata, -⟩ := hvalues
  refine List.forall_mem_map.mpr fun m hm => ?_
  simp only [linkQuestion, List.mem_cons, List.not_mem_nil, or_false] at hm
  rcases hm with rfl | rfl | rfl | rfl
  · exact takes_field _ _ _ (takes_string (isString_rendered _ _))
  · exact takes_field _ _ _ (takes_raw hid (by decide))
  · exact takes_field _ _ _ (takes_string (isString_rendered _ _))
  · have hnamed : (rendered ("data", v)).isNamed "data" = true :=
      beq_iff_eq.mpr Envelope.asciiLower_data
    rw [Admits, Envelope.member_data hnamed]
    exact takes_field _ _ _ (takes_raw hdata (by decide))

end

/-- A link to a name that the import table spells otherwise. -/
def usersLink : Link :=
  ⟨.onLine 1 7 14, some ⟨"file:///users", 0⟩, "Users"⟩

/-- The link is sent back as it was written. -/
theorem Session.linkData_agrees_users :
    let s := Session.opened (.ofImports [⟨"users", "/users", 0⟩]) ["Given \"Users\""]
    let d : Document := ⟨"inmemory:a", 1, 1, ["Given \"Users\""]⟩
    let ms := (linkQuestion usersLink.json).map rendered
    let t := (Json.object (linkQuestion usersLink.json)).render
    usersLink ∈ d.links s.configuration ∧ IsObjectText 2 ms t.toList ∧
      TypeIs ms "GetLinkData" ∧ Envelope.Decodes ms ∧
      s.store.get? (Envelope.ofMembers ms).uri = some d ∧
      (s.processText t).reply =
        some ⟨requestId ms, some (.target ⟨"file:///users", 0⟩)⟩ := by
  intro s d ms t
  have hl : usersLink ∈ d.links s.configuration := by decide +kernel
  have hvalue : IsValue 2 usersLink.json.render.toList := by
    obtain ⟨ms, hobject, -⟩ := usersLink.isObject_json
    exact hobject.isValue
  have ho := isObjectText_linkQuestion hvalue
  have ht := typeIs_linkQuestion usersLink.json
  have ha := decodes_linkQuestion hvalue
  have hstore : s.store.get? (Envelope.ofMembers ms).uri = some d := by decide +kernel
  have hknown : (s.configuration.imports.find? usersLink.name).isSome = true := by decide +kernel
  have hsent := usersLink.sentAs_rendered
  obtain ⟨-, hanswers⟩ := linkData_agrees s hl
  obtain ⟨-, answer, hreply, hsome, htarget⟩ := hanswers t 2 ms _ (by decide) ho ht ha hstore
    (data_linkQuestion usersLink.json) hsent
  obtain ⟨a, rfl⟩ := Option.isSome_iff_exists.mp (hsome.mpr ⟨by decide +kernel, hknown⟩)
  obtain ⟨target, rfl, hsame⟩ := htarget a rfl
  obtain rfl := Option.some.inj hsame
  exact ⟨hl, ho, ht, ha, hstore, hreply⟩

/-- A blank name that the table has leads somewhere as a link, and has no data. -/
theorem Session.linkData_of_blank :
    let s := Session.opened (.ofImports [⟨" ", "/a", 0⟩]) ["import \" \""]
    let d : Document := ⟨"inmemory:a", 1, 1, ["import \" \""]⟩
    let t := "\x7b\"type\":\"GetLinkData\",\"id\":1,\"uri\":\"inmemory:a\",\"data\":\" \"\x7d"
    s.store.get? "inmemory:a" = some d ∧
      d.links s.configuration = [⟨.onLine 1 8 11, some ⟨"file:///a", 0⟩, " "⟩] ∧
      Request.decode t = .ok (.query (some "1") (.linkData "inmemory:a" " ")) ∧
      s.configuration.imports.find? " " = some ⟨"file:///a", 0⟩ ∧
      (s.processText t).reply = some (.failed (some "1")) := by
  decide +kernel

end Stepwise
