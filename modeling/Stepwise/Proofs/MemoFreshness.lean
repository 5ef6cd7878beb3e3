import Mathlib.Data.List.Basic
import Stepwise.Proofs.RegistryReplacement

/-!
# Remembered markers are those of the present

The key of remembered markers is a text. Read from its end it gives back the
generation, the revision and the address, whatever characters the address has, so
equal keys mean equal triples. Along a run a generation stands for one
configuration and a revision for one document, also after the document was closed.
Together: markers found under a key are those of the document and configuration
that are asked for, and the answer is what a fresh check would give.

The two counters are natural numbers here. They are shown to count the requests of
a run, so that a run with fewer than 2^64 of them never leaves 64 bits.
-/
namespace Stepwise

theorem digits_injective {m n : Nat} (h : toString m = toString n) : m = n := by
  have hd : Nat.toDigits 10 m = Nat.toDigits 10 n := by
    rw [← Nat.toList_repr, ← Nat.toList_repr]
    exact congrArg String.toList h
  rw [← Nat.ofDigitChars_ten_toDigits (n := m), hd, Nat.ofDigitChars_ten_toDigits]

theorem hash_not_mem_digits (n : Nat) : '#' ∉ (toString n).toList := by
  intro h
  have hd : '#' ∈ Nat.toDigits 10 n := by
    rw [← Nat.toList_repr]
    exact h
  have := Nat.isDigit_of_mem_toDigits (by decide) (by decide) hd
  revert this
  decide

/-- A list is cut in only one way at its last separator. -/
theorem cut_at_last_injective {α : Type} {c : α} {xs ys as bs : List α} (ha : c ∉ as) (hb : c ∉ bs)
    (h : xs ++ c :: as = ys ++ c :: bs) : xs = ys ∧ as = bs := by
  rcases List.append_eq_append_iff.mp h with ⟨zs, rfl, hz⟩ | ⟨zs, rfl, hz⟩
  · cases zs with
    | nil => exact ⟨(List.append_nil xs).symm, (List.cons.inj hz).2⟩
    | cons z zs =>
        have hmem : c ∈ as := by
          rw [(List.cons.inj hz).2]
          exact List.mem_append_right zs List.mem_cons_self
        exact absurd hmem ha
  · cases zs with
    | nil => exact ⟨List.append_nil ys, (List.cons.inj hz).2.symm⟩
    | cons z zs =>
        have hmem : c ∈ bs := by
          rw [(List.cons.inj hz).2]
          exact List.mem_append_right zs List.mem_cons_self
        exact absurd hmem hb

theorem append_number_injective {x y : String} {m n : Nat}
    (h : x ++ "#" ++ toString m = y ++ "#" ++ toString n) : x = y ∧ m = n := by
  have hl : x.toList ++ '#' :: (toString m).toList = y.toList ++ '#' :: (toString n).toList := by
    simpa using congrArg String.toList h
  obtain ⟨hx, hm⟩ := cut_at_last_injective (hash_not_mem_digits m) (hash_not_mem_digits n) hl
  exact ⟨String.toList_inj.mp hx, digits_injective (String.toList_inj.mp hm)⟩

namespace Store

/-- Every open document has a revision of its own that was given out. -/
structure Numbered (st : Store) : Prop where
  le : ∀ d ∈ st.documents, d.revision ≤ st.revision
  unique : ∀ d ∈ st.documents, ∀ e ∈ st.documents, d.revision = e.revision → d = e

theorem Numbered.empty : Store.empty.Numbered :=
  ⟨fun _ h => absurd h List.not_mem_nil, fun _ h => absurd h List.not_mem_nil⟩

theorem mem_update {st : Store} {uri : String} {version : Int} {lines : List String} {d : Document}
    (h : d ∈ (st.update uri version lines).documents) :
    d = st.nextDocument uri version lines ∨ d ∈ st.documents := by
  rcases List.mem_cons.mp h with h | h
  · exact .inl h
  · exact .inr (List.mem_of_mem_filter h)

theorem mem_close {st : Store} {uri : String} {d : Document}
    (h : d ∈ (st.close uri).documents) : d ∈ st.documents :=
  List.mem_of_mem_filter h

theorem mem_of_get? {st : Store} {uri : String} {d : Document} (h : st.get? uri = some d) :
    d ∈ st.documents :=
  List.mem_of_find?_eq_some h

/-- The document kept under an address, which is taken as it is. -/
def at? (st : Store) (address : String) : Option Document :=
  st.documents.find? fun e => e.uri == address

theorem get?_eq_at? (st : Store) (uri : String) :
    st.get? uri = st.at? (Location.normalize uri) := rfl

theorem at?_update (st : Store) (uri : String) (version : Int) (lines : List String)
    (address : String) :
    (st.update uri version lines).at? address =
      if Location.normalize uri = address then some (st.nextDocument uri version lines)
      else st.at? address := by
  by_cases h : Location.normalize uri = address
  · simp [at?, update, nextDocument, h]
  · simp only [at?, update, nextDocument, List.find?_cons, beq_eq_false_iff_ne.mpr h, if_neg h,
      List.find?_filter]
    congr 1
    funext e
    grind

theorem at?_close (st : Store) (uri address : String) :
    (st.close uri).at? address =
      if Location.normalize uri = address then none else st.at? address := by
  simp only [at?, close, List.find?_filter]
  by_cases h : Location.normalize uri = address
  · rw [if_pos h, List.find?_eq_none]
    simp [h]
  · rw [if_neg h]
    congr 1
    funext e
    grind

/-- What was just stored is what is found. -/
theorem get?_update (st : Store) (uri : String) (version : Int) (lines : List String) :
    (st.update uri version lines).get? uri = some (st.nextDocument uri version lines) := by
  rw [get?_eq_at?, at?_update, if_pos rfl]

theorem get?_update_eq (st : Store) (uri : String) (version : Int) (lines : List String)
    (other : String) :
    (st.update uri version lines).get? other =
      if Location.normalize uri = Location.normalize other then
        some (st.nextDocument uri version lines)
      else st.get? other :=
  st.at?_update uri version lines (Location.normalize other)

theorem get?_close_eq (st : Store) (uri other : String) :
    (st.close uri).get? other =
      if Location.normalize uri = Location.normalize other then none else st.get? other :=
  st.at?_close uri (Location.normalize other)

theorem Numbered.update {st : Store} (h : st.Numbered) (uri : String) (version : Int)
    (lines : List String) : (st.update uri version lines).Numbered := by
  have hnew : (st.nextDocument uri version lines).revision = st.revision + 1 := rfl
  have hrev : (st.update uri version lines).revision = st.revision + 1 := rfl
  constructor
  · intro d hd
    rcases mem_update hd with rfl | hd
    · exact Nat.le_of_eq (hnew.trans hrev.symm)
    · have := h.le d hd
      omega
  · intro d hd e he hde
    rcases mem_update hd with rfl | hd <;> rcases mem_update he with rfl | he
    · rfl
    · have := h.le e he
      omega
    · have := h.le d hd
      omega
    · exact h.unique d hd e he hde

theorem Numbered.close {st : Store} (h : st.Numbered) (uri : String) : (st.close uri).Numbered :=
  ⟨fun d hd => h.le d (mem_close hd),
    fun d hd e he => h.unique d (mem_close hd) e (mem_close he)⟩

end Store

namespace Session

/-- Equal keys come from equal addresses, revisions and generations, whatever the
addresses are made of. -/
theorem memoKey_injective {c c' : Configuration} {d d' : Document}
    (h : memoKey c d = memoKey c' d') :
    d.uri = d'.uri ∧ d.revision = d'.revision ∧ c.generation = c'.generation := by
  obtain ⟨h, hg⟩ := append_number_injective h
  obtain ⟨hu, hr⟩ := append_number_injective h
  exact ⟨hu, hr, hg⟩

/-- What the passage of events can do to a session, as far as keys can tell: a generation
that is the same stands for the same configuration, and a document is old or has a
revision not given out before. -/
structure Precedes (s t : Session) : Prop where
  generation_le : s.configuration.generation ≤ t.configuration.generation
  configuration_eq : s.configuration.generation = t.configuration.generation →
    s.configuration = t.configuration
  revision_le : s.store.revision ≤ t.store.revision
  old_or_new : ∀ d ∈ t.store.documents, d ∈ s.store.documents ∨ s.store.revision < d.revision

theorem Precedes.refl (s : Session) : s.Precedes s :=
  ⟨Nat.le_refl _, fun _ => rfl, Nat.le_refl _, fun _ h => .inl h⟩

theorem Precedes.trans {s t u : Session} (h : s.Precedes t) (k : t.Precedes u) : s.Precedes u := by
  have hg := h.generation_le
  have kg := k.generation_le
  refine ⟨Nat.le_trans hg kg, ?_, Nat.le_trans h.revision_le k.revision_le, ?_⟩
  · intro he
    rw [h.configuration_eq (by omega), k.configuration_eq (by omega)]
  · intro d hd
    rcases k.old_or_new d hd with hd | hd
    · exact h.old_or_new d hd
    · exact .inr (Nat.lt_of_le_of_lt h.revision_le hd)

/-- Only configuration and store matter. -/
theorem Precedes.of_eq {s t : Session} (hc : t.configuration = s.configuration)
    (hs : t.store = s.store) : s.Precedes t := by
  refine ⟨Nat.le_of_eq (by rw [hc]), fun _ => hc.symm, Nat.le_of_eq (by rw [hs]), ?_⟩
  intro d hd
  exact .inl (hs ▸ hd)

theorem precedes_process (s : Session) (r : Request) : s.Precedes (s.process r).session := by
  cases r with
  | update uri version content =>
      refine ⟨Nat.le_refl _, fun _ => rfl, Nat.le_succ _, ?_⟩
      intro d hd
      rcases Store.mem_update hd with rfl | hd
      · exact .inr (Nat.lt_succ_self _)
      · exact .inl hd
  | delete uri => exact ⟨Nat.le_refl _, fun _ => rfl, Nat.le_refl _, fun d hd => .inl (Store.mem_close hd)⟩
  | configure kind data =>
      have hg := s.configuration.apply_generation kind data
      rw [← process_configure_configuration] at hg
      exact ⟨by omega, fun he => absurd he (by omega), Nat.le_refl _, fun d hd => .inl hd⟩
  | query id q => exact .of_eq (s.ask_configuration id q) (s.ask_store id q)

theorem precedes_step (s : Session) (e : SessionEvent) : s.Precedes (s.step e) := by
  rcases s.step_cases e with ⟨r, _, h⟩ | ⟨_, memo, _, h⟩
  · rw [h]
    exact s.precedes_process r
  · rw [h]
    exact .of_eq rfl rfl

theorem precedes_run (s : Session) (events : List SessionEvent) : s.Precedes (s.run events) := by
  induction events generalizing s with
  | nil => exact .refl s
  | cons e events ih => exact (s.precedes_step e).trans (ih _)

/-- Along a run a key stands for one document under one configuration. -/
theorem Precedes.eq_of_memoKey {s t : Session} (h : s.Precedes t) (hs : s.store.Numbered)
    {d e : Document} (hd : d ∈ s.store.documents) (he : e ∈ t.store.documents)
    (hk : memoKey s.configuration d = memoKey t.configuration e) :
    d = e ∧ s.configuration = t.configuration := by
  obtain ⟨_, hr, hg⟩ := memoKey_injective hk
  refine ⟨?_, h.configuration_eq hg⟩
  rcases h.old_or_new e he with he | he
  · exact hs.unique d hd e he hr
  · have := hs.le d hd
    omega

/-- Whatever is remembered was worked out at some point before, for a document that was
open under the configuration of that point. -/
structure Sound (s : Session) : Prop where
  numbered : s.store.Numbered
  memo : ∀ entry ∈ s.memo, ∃ (t : Session) (d : Document), t.Precedes s ∧ t.store.Numbered ∧
    d ∈ t.store.documents ∧ entry = (memoKey t.configuration d, d.diagnostics t.configuration)

theorem sound_withDirectives (directives : List String) : (withDirectives directives).Sound := by
  unfold withDirectives
  split
  · exact ⟨.empty, fun _ h => absurd h List.not_mem_nil⟩
  · exact ⟨.empty, fun _ h => absurd h List.not_mem_nil⟩

/-- Nothing is remembered that is not sound later on. -/
theorem Sound.of_precedes {s t : Session} (h : s.Sound) (hst : s.Precedes t)
    (hn : t.store.Numbered) (hm : ∀ entry ∈ t.memo, entry ∈ s.memo) : t.Sound := by
  refine ⟨hn, ?_⟩
  intro entry he
  obtain ⟨u, d, hu, hrest⟩ := h.memo entry (hm entry he)
  exact ⟨u, d, hu.trans hst, hrest⟩

/-- The markers of an open document, remembered or not, are those of a fresh check. -/
theorem Sound.markersOf_fst {s : Session} (h : s.Sound) {d : Document}
    (hd : d ∈ s.store.documents) : (s.markersOf d).1 = d.diagnostics s.configuration := by
  unfold markersOf
  dsimp only
  split
  · rename_i markers hl
    obtain ⟨before, after, hmemo, _⟩ := List.lookup_eq_some_iff.mp hl
    have hmem : (memoKey s.configuration d, markers) ∈ s.memo := by
      rw [hmemo]
      exact List.mem_append_right before List.mem_cons_self
    obtain ⟨t, e, ht, hn, he, heq⟩ := h.memo _ hmem
    obtain ⟨hk, hmarkers⟩ := Prod.mk.inj heq
    obtain ⟨hed, hc⟩ := ht.eq_of_memoKey hn he hd hk.symm
    rw [hmarkers, hed, hc]
  · rfl

theorem Sound.markersOf_snd {s : Session} (h : s.Sound) {d : Document}
    (hd : d ∈ s.store.documents) : (s.markersOf d).2.Sound := by
  unfold markersOf
  dsimp only
  split
  · exact h
  · refine ⟨h.numbered, ?_⟩
    intro entry he
    rcases List.mem_cons.mp he with rfl | he
    · exact ⟨s, d, .of_eq rfl rfl, h.numbered, hd, rfl⟩
    · obtain ⟨t, e, ht, hrest⟩ := h.memo entry he
      exact ⟨t, e, ht.trans (.of_eq rfl rfl), hrest⟩

theorem Sound.process {s : Session} (h : s.Sound) (r : Request) : (s.process r).session.Sound := by
  have hp := s.precedes_process r
  cases r with
  | update uri version content =>
      exact h.of_precedes hp (h.numbered.update uri version content) fun _ he => he
  | delete uri => exact h.of_precedes hp (h.numbered.close uri) fun _ he => he
  | configure kind data => exact h.of_precedes hp h.numbered fun _ he => he
  | query id q =>
      change (s.ask id q).session.Sound
      rcases s.ask_cases id q with hq | ⟨uri, d, hd, hq⟩
      · rw [hq]
        exact h
      · rw [hq]
        exact h.markersOf_snd (Store.mem_of_get? hd)

theorem Sound.step {s : Session} (h : s.Sound) (e : SessionEvent) : (s.step e).Sound := by
  rcases s.step_cases e with ⟨r, _, hs⟩ | ⟨_, memo, hm, hs⟩
  · rw [hs]
    exact h.process r
  · rw [hs]
    exact h.of_precedes (.of_eq rfl rfl) h.numbered fun _ he => hm.subset he

theorem Sound.run {s : Session} (h : s.Sound) (events : List SessionEvent) :
    (s.run events).Sound := by
  induction events generalizing s with
  | nil => exact h
  | cons e events ih => exact ih (h.step e)

/-- In a sound session the memory does not show. -/
theorem Sound.checkSyntax_reply {s : Session} (h : s.Sound) (id : Option String) (uri : String) :
    (s.process (.query id (.checkSyntax uri))).reply =
      some ⟨id, (s.store.get? uri).map fun d => .markers (d.diagnostics s.configuration)⟩ := by
  change (s.ask id (.checkSyntax uri)).reply = _
  cases hd : s.store.get? uri with
  | none =>
      rw [s.ask_of_closed id rfl hd]
      rfl
  | some d =>
      rw [s.ask_of_open id rfl hd]
      change some (Reply.mk id (some (.markers (s.markersOf d).1))) = _
      rw [h.markersOf_fst (Store.mem_of_get? hd)]
      rfl

end Session

def SessionEvent.stores (e : SessionEvent) : Bool :=
  match e.request? with
  | some (.update ..) => true
  | _ => false

def SessionEvent.configures (e : SessionEvent) : Bool :=
  match e.request? with
  | some (.configure ..) => true
  | _ => false

namespace Session

theorem revision_step (s : Session) (e : SessionEvent) :
    (s.step e).store.revision = s.store.revision + e.stores.toNat := by
  unfold SessionEvent.stores
  rcases s.step_cases e with ⟨r, hr, hs⟩ | ⟨hr, memo, _, hs⟩
  · rw [hs, hr]
    cases r with
    | query id q => exact congrArg Store.revision (s.ask_store id q)
    | _ => rfl
  · rw [hs, hr]
    rfl

theorem generation_step (s : Session) (e : SessionEvent) :
    (s.step e).configuration.generation = s.configuration.generation + e.configures.toNat := by
  unfold SessionEvent.configures
  rcases s.step_cases e with ⟨r, hr, hs⟩ | ⟨hr, memo, _, hs⟩
  · rw [hs, hr]
    cases r with
    | query id q => exact congrArg Configuration.generation (s.ask_configuration id q)
    | configure kind data => exact s.configuration.apply_generation kind data
    | _ => rfl
  · rw [hs, hr]
    rfl

/-- The two counters of a session count requests. -/
theorem revision_run (s : Session) (events : List SessionEvent) :
    (s.run events).store.revision = s.store.revision + events.countP (·.stores) := by
  induction events generalizing s with
  | nil => rfl
  | cons e events ih =>
      rw [run_cons, ih, revision_step, List.countP_cons]
      cases e.stores with
      | false => simp
      | true => simp only [Bool.toNat_true, if_true]; omega

theorem generation_run (s : Session) (events : List SessionEvent) :
    (s.run events).configuration.generation =
      s.configuration.generation + events.countP (·.configures) := by
  induction events generalizing s with
  | nil => rfl
  | cons e events ih =>
      rw [run_cons, ih, generation_step, List.countP_cons]
      cases e.configures with
      | false => simp
      | true => simp only [Bool.toNat_true, if_true]; omega

theorem withDirectives_revision (directives : List String) :
    (withDirectives directives).store.revision = 0 := by
  unfold withDirectives
  split <;> rfl

theorem withDirectives_generation_le (directives : List String) :
    (withDirectives directives).configuration.generation ≤ 1 := by
  unfold withDirectives
  split
  · exact Nat.zero_le 1
  · exact Nat.le_refl 1

/-- At every point of every run, with any remembered markers lost on the way, a syntax
question is answered by a fresh check of the open document under the configuration of
that point. No key is shared by two documents or two configurations of the run. After
an update or a configuration request the answer is that of the new document or the new
configuration. The counters in a key count requests, so those of a run with fewer than
2^64 requests of either sort fit 64 bits. -/
theorem checkSyntax_answer_fresh (directives : List String) (events : List SessionEvent) :
    let s := (withDirectives directives).run events
    (∀ e id uri, e.request? = some (.query id (.checkSyntax uri)) →
      s.replyTo e =
        some ⟨id, (s.store.get? uri).map fun d => .markers (d.diagnostics s.configuration)⟩) ∧
    (∀ earlier later, events = earlier ++ later →
      ∀ d ∈ ((withDirectives directives).run earlier).store.documents, ∀ d' ∈ s.store.documents,
        memoKey ((withDirectives directives).run earlier).configuration d =
          memoKey s.configuration d' →
        d = d' ∧ ((withDirectives directives).run earlier).configuration = s.configuration) ∧
    (∀ id uri version lines,
      ((s.process (.update uri version lines)).session.process
        (.query id (.checkSyntax uri))).reply =
          some ⟨id, some (.markers
            ((s.store.nextDocument uri version lines).diagnostics s.configuration))⟩) ∧
    (∀ id uri kind data,
      ((s.process (.configure kind data)).session.process (.query id (.checkSyntax uri))).reply =
        some ⟨id, (s.store.get? uri).map fun d =>
          .markers (d.diagnostics (s.configuration.apply kind data).1)⟩) ∧
    s.store.revision = events.countP (·.stores) ∧
    s.configuration.generation ≤ 1 + events.countP (·.configures) := by
  intro s
  have hs : s.Sound := (sound_withDirectives directives).run events
  refine ⟨?_, ?_, ?_, ?_, ?_, ?_⟩
  · intro e id uri he
    rw [s.replyTo_of_request he, hs.checkSyntax_reply]
  · rintro earlier later rfl d hd d' hd' hk
    have hsound := (sound_withDirectives directives).run earlier
    have hlater : ((withDirectives directives).run earlier).Precedes s := by
      rw [show s = _ from run_append _ earlier later]
      exact precedes_run _ later
    exact hlater.eq_of_memoKey hsound.numbered hd hd' hk
  · intro id uri version lines
    rw [(hs.process _).checkSyntax_reply]
    change some (Reply.mk id (((s.store.update uri version lines).get? uri).map _)) = _
    rw [s.store.get?_update]
    rfl
  · intro id uri kind data
    exact (hs.process (.configure kind data)).checkSyntax_reply id uri
  · rw [show s.store.revision = _ from revision_run _ events, withDirectives_revision, Nat.zero_add]
  · rw [show s.configuration.generation = _ from generation_run _ events]
    exact Nat.add_le_add_right (withDirectives_generation_le directives) _

end Session
end Stepwise
