import Exemplar.Proofs.TypeTerm.Parser
import Mathlib.Data.List.Chain

/-!
# Exemplar.Proofs.TypeTerm.Spacing

Blanks between the tokens of a written type.  A word, which is a name or a bound
keyword, is a token, and so is every other character that is no blank.  Blanks
can be put between any two tokens, in front of the first one and behind the
last one, and the type stays what it was; only a `<` has to stand right behind
its name, and with a blank before it the text is no type at all.

* `Spread` — a text with more blanks between its tokens;
* `Attached` — no blank stands before a `<`;
* `Derives.attached` — this is so in every type of the grammar;
* `Derives.exists_spread` — blanks anywhere else do not change a type;
* `parse_spread_iff` — the same of whole texts.
-/

namespace Exemplar

namespace TypeTerm

/-! ## more blanks -/

/-- A word goes on from the character before to the text that follows. -/
def WithinWord (before : Option Char) (s : List Char) : Prop :=
  before.any isNamePart = true ∧ s.head?.any isNamePart = true

instance (before : Option Char) (s : List Char) : Decidable (WithinWord before s) :=
  inferInstanceAs (Decidable (_ ∧ _))

/-- The second text is the first one with blanks put in, anywhere but within a
word.  What comes before the texts is the given character. -/
inductive Spread : Option Char → List Char → List Char → Prop where
  | nil {before : Option Char} : Spread before [] []
  | char {before : Option Char} {c : Char} {s s' : List Char} :
      Spread (some c) s s' → Spread before (c :: s) (c :: s')
  | blank {before : Option Char} {c : Char} {s s' : List Char} :
      isBlank c = true → ¬ WithinWord before s → Spread before s s' → Spread before s (c :: s')

namespace Spread

variable {before : Option Char} {c : Char} {a b s s' w : List Char}

/-- A text with blanks put in is empty only if it was. -/
theorem nil_iff : Spread before s [] ↔ s = [] := by
  constructor
  · intro h
    cases h
    rfl
  · rintro rfl
    exact .nil

/-- The first character of the second text is that of the first one, or a blank
put in. -/
theorem cons_iff : Spread before s (c :: s') ↔
    (s.head? = some c ∧ Spread (some c) s.tail s') ∨
      (isBlank c = true ∧ ¬ WithinWord before s ∧ Spread before s s') := by
  constructor
  · intro h
    cases h with
    | char h => exact .inl ⟨rfl, h⟩
    | blank hc hword h => exact .inr ⟨hc, hword, h⟩
  · rintro (⟨hhead, h⟩ | ⟨hc, hword, h⟩)
    · obtain ⟨rest, rfl⟩ := List.head?_eq_some_iff.mp hhead
      exact .char h
    · exact .blank hc hword h

/-- Decides whether a text is another one with blanks put in. -/
def decide : (before : Option Char) → (s s' : List Char) → Decidable (Spread before s s')
  | _, _, [] => decidable_of_iff _ nil_iff.symm
  | before, s, c :: s' =>
      have := decide (some c) s.tail s'
      have := decide before s s'
      decidable_of_iff _ cons_iff.symm

instance (before : Option Char) (s s' : List Char) : Decidable (Spread before s s') :=
  decide before s s'

/-! ### where the characters are -/

theorem blanks_of_blanks (h : Spread before w s) (hw : Blanks w) : Blanks s := by
  induction h with
  | nil => exact hw
  | char _ ih =>
      obtain ⟨hc, hrest⟩ := List.forall_mem_cons.mp hw
      exact List.forall_mem_cons.mpr ⟨hc, ih hrest⟩
  | blank hc _ _ ih => exact List.forall_mem_cons.mpr ⟨hc, ih hw⟩

/-- A character has blanks put before it, unless it goes on with a word. -/
theorem exists_of_cons (h : Spread before (c :: s) s') : ∃ w rest, Blanks w ∧
    s' = w ++ c :: rest ∧ Spread (some c) s rest ∧ (WithinWord before (c :: s) → w = []) := by
  generalize hs : c :: s = text at h
  induction h with
  | nil => contradiction
  | @char _ _ _ rest hrest _ =>
      cases hs
      exact ⟨[], rest, .nil, rfl, hrest, fun _ => rfl⟩
  | blank hc hword _ ih =>
      obtain ⟨w, rest, hw, rfl, hrest, _⟩ := ih hs
      exact ⟨_ :: w, rest, List.forall_mem_cons.mpr ⟨hc, hw⟩, rfl, hrest,
        fun hwithin => absurd (hs ▸ hwithin) hword⟩

/-- A run of blanks is put in. -/
theorem blanks (hw : Blanks w) (hword : WithinWord before s → w = []) (h : Spread before s s') :
    Spread before s (w ++ s') := by
  by_cases hwithin : WithinWord before s
  · rw [hword hwithin]
    exact h
  · clear hword
    induction w with
    | nil => exact h
    | cons c w ih =>
        obtain ⟨hc, hw⟩ := List.forall_mem_cons.mp hw
        exact .blank hc hwithin (ih hw)

/-- A text in two parts. -/
theorem exists_of_append (h : Spread before (a ++ b) s) : ∃ a' b' after,
    s = a' ++ b' ∧ Spread before a a' ∧ Spread after b b' := by
  induction a generalizing before s with
  | nil => exact ⟨[], s, before, rfl, .nil, h⟩
  | cons c a ih =>
      rw [List.cons_append] at h
      obtain ⟨w, rest, hw, rfl, hrest, hword⟩ := h.exists_of_cons
      obtain ⟨a', b', after, rfl, ha, hb⟩ := ih hrest
      exact ⟨w ++ c :: a', b', after, by simp, blanks hw hword (.char ha), hb⟩

/-- Blanks and a character after them. -/
theorem exists_of_blanks_cons (hw : Blanks w) (h : Spread before (w ++ c :: s) s') :
    ∃ w' rest, Blanks w' ∧ s' = w' ++ c :: rest ∧ Spread (some c) s rest := by
  obtain ⟨v, b, _, rfl, hv, hb⟩ := h.exists_of_append
  obtain ⟨v', rest, hv', rfl, hrest, _⟩ := hb.exists_of_cons
  exact ⟨v ++ v', rest, (hv.blanks_of_blanks hw).append hv', by simp, hrest⟩

/-- A word that goes on has no blanks put into it. -/
theorem exists_of_within (hbefore : isNamePart c = true) (hpart : ∀ d ∈ s, isNamePart d = true)
    (h : Spread (some c) s s') : ∃ w, Blanks w ∧ s' = s ++ w := by
  induction s generalizing c s' with
  | nil => exact ⟨s', h.blanks_of_blanks .nil, rfl⟩
  | cons d s ih =>
      obtain ⟨hd, hpart⟩ := List.forall_mem_cons.mp hpart
      obtain ⟨_, rest, _, rfl, hrest, hword⟩ := h.exists_of_cons
      obtain ⟨w, hw, rfl⟩ := ih hd hpart hrest
      rw [hword ⟨hbefore, hd⟩]
      exact ⟨w, hw, rfl⟩

/-- A word stays as it is, with blanks around it. -/
theorem exists_of_word (hpart : ∀ d ∈ s, isNamePart d = true) (h : Spread before s s') :
    ∃ w w', Blanks w ∧ Blanks w' ∧ s' = w ++ (s ++ w') := by
  cases s with
  | nil => exact ⟨s', [], h.blanks_of_blanks .nil, .nil, by simp⟩
  | cons c s =>
      obtain ⟨hc, hpart⟩ := List.forall_mem_cons.mp hpart
      obtain ⟨w, rest, hw, rfl, hrest, _⟩ := h.exists_of_cons
      obtain ⟨w', hw', rfl⟩ := exists_of_within hc hpart hrest
      exact ⟨w, w', hw, hw', rfl⟩

/-- Blanks, a word, and what follows it. -/
theorem exists_of_blanks_word (hw : Blanks w) (hpart : ∀ d ∈ a, isNamePart d = true)
    (h : Spread before (w ++ (a ++ s)) s') : ∃ v v' rest after,
      Blanks v ∧ Blanks v' ∧ s' = v ++ (a ++ (v' ++ rest)) ∧ Spread after s rest := by
  obtain ⟨u, b, _, rfl, hu, hb⟩ := h.exists_of_append
  obtain ⟨_, rest, after, rfl, hword, hrest⟩ := hb.exists_of_append
  obtain ⟨v, v', hv, hv', rfl⟩ := hword.exists_of_word hpart
  exact ⟨u ++ v, v', rest, after, (hu.blanks_of_blanks hw).append hv, hv', by simp, hrest⟩

end Spread

/-! ## arguments right behind their name -/

/-- No blank stands before a `<`. -/
def Attached (s : List Char) : Prop := s.IsChain fun c d => d = '<' → isBlank c = false

instance (s : List Char) : Decidable (Attached s) :=
  inferInstanceAs (Decidable (s.IsChain _))

/-- The text does not begin with `<`. -/
def NoOpening (s : List Char) : Prop := ∀ d ∈ s.head?, d ≠ '<'

section

variable {s t w : List Char}

theorem NoOpening.append (hs : NoOpening s) (ht : NoOpening t) : NoOpening (s ++ t) := by
  cases s with
  | nil => exact ht
  | cons c s => exact hs

theorem noOpening_of_not_mem (h : '<' ∉ s) : NoOpening s := by
  rintro d hd rfl
  exact h (List.mem_of_mem_head? hd)

theorem attached_of_not_mem (h : '<' ∉ s) : Attached s := by
  refine (List.pairwise_iff_forall_sublist.mpr fun {c d} hsub heq => ?_).isChain
  exact absurd (hsub.subset (heq ▸ List.mem_cons_of_mem c List.mem_cons_self)) h

/-- Texts with attached arguments stay so side by side, if the second begins
with no `<`. -/
theorem Attached.append (hs : Attached s) (ht : Attached t) (hhead : NoOpening t) :
    Attached (s ++ t) :=
  List.IsChain.append hs ht fun _ _ d hd heq => absurd heq (hhead d hd)

theorem Attached.left (h : Attached (s ++ t)) : Attached s := h.left_of_append

theorem Attached.right (h : Attached (s ++ t)) : Attached t := h.right_of_append

theorem Attached.after {c : Char} (h : Attached (s ++ c :: t)) : Attached t := h.right.of_cons

/-- Blanks before a `<` are none. -/
theorem Attached.eq_nil (h : Attached (w ++ '<' :: t)) (hw : Blanks w) : w = [] := by
  obtain rfl | ⟨w, c, rfl⟩ := List.eq_nil_or_concat w
  · rfl
  · have hc : isBlank c = true := hw c (by simp)
    have hattached : Attached (w ++ c :: '<' :: t) := by simpa using h
    have hnot := (List.isChain_cons_cons.mp hattached.right).1 rfl
    rw [hc] at hnot
    contradiction

theorem lt_not_mem_of_isNamePart (hs : ∀ c ∈ s, isNamePart c = true) : '<' ∉ s :=
  fun hmem => absurd (hs '<' hmem) (by decide)

theorem isNamePart_of_mem_keyword {keyword : String} (h : keyword ∈ boundKeywords) :
    ∀ c ∈ keyword.toList, isNamePart c = true := by
  have hall : ∀ word ∈ boundKeywords, word.toList.all isNamePart = true := by decide
  exact List.all_eq_true.mp (hall keyword h)

/-- A `<` has the name of its type before it. -/
theorem attached_generic {name : List Char} (hw : Blanks w) (hname : QualifiedName name)
    (hs : Attached s) : Attached (w ++ (name ++ '<' :: s)) := by
  have hstart : '<' ∉ w ++ name := by
    simp [lt_not_mem_of_blanks hw, lt_not_mem_of_isNamePart hname.isNamePart]
  have hopening : Attached ('<' :: s) := by
    refine List.isChain_cons.mpr ⟨fun _ _ _ => ?_, hs⟩
    decide
  rw [← List.append_assoc]
  refine List.IsChain.append (attached_of_not_mem hstart) hopening fun c hc _ _ _ => ?_
  rw [List.getLast?_append_of_ne_nil w hname.ne_nil] at hc
  exact isBlank_of_isNamePart (hname.isNamePart c (List.mem_of_mem_getLast? hc))

end

/-- A type does not begin with `<`. -/
theorem Derives.noOpening {s : List Char} {term : TypeTerm} (h : Derives s term) :
    NoOpening s := by
  cases h with
  | wildcard hw | bounded hw =>
      refine (noOpening_of_not_mem (lt_not_mem_of_blanks hw)).append ?_
      rintro _ ⟨⟩
      decide
  | named hw hname =>
      exact (noOpening_of_not_mem (lt_not_mem_of_blanks hw)).append
        (noOpening_of_not_mem (lt_not_mem_of_isNamePart hname.isNamePart))
  | generic hw hname =>
      refine (noOpening_of_not_mem (lt_not_mem_of_blanks hw)).append ?_
      obtain ⟨c, tail, rfl, _⟩ := hname.exists_cons
      rintro _ ⟨⟩ rfl
      exact absurd (hname.isNamePart '<' List.mem_cons_self) (by decide)
  | array hitem hw =>
      refine hitem.noOpening.append ((noOpening_of_not_mem (lt_not_mem_of_blanks hw)).append ?_)
      rintro _ ⟨⟩
      decide

/-- Arguments do not begin with `<`. -/
theorem DerivesArgs.noOpening {s : List Char} {args : List TypeTerm} (h : DerivesArgs s args) :
    NoOpening s := by
  cases h with
  | last harg hw | more harg hw _ =>
      refine harg.noOpening.append ((noOpening_of_not_mem (lt_not_mem_of_blanks hw)).append ?_)
      rintro _ ⟨⟩
      decide

mutual

/-- **No blank stands before a `<`** in a type of the grammar. -/
theorem Derives.attached : {s : List Char} → {term : TypeTerm} → Derives s term → Attached s
  | _, _, .wildcard hw => attached_of_not_mem (by simp [lt_not_mem_of_blanks hw])
  | _, _, @Derives.bounded w w' _ keyword c _ hw hw' hkeyword hc hbound => by
      have hstart : Attached (w ++ '?' :: (w' ++ (keyword.toList ++ [c]))) := by
        refine attached_of_not_mem ?_
        have hne : '<' ≠ c := by
          rintro rfl
          contradiction
        simp [lt_not_mem_of_blanks hw, lt_not_mem_of_blanks hw',
          lt_not_mem_of_isNamePart (isNamePart_of_mem_keyword hkeyword), hne]
      have h := hstart.append hbound.attached hbound.noOpening
      simpa only [List.append_assoc, List.cons_append, List.nil_append] using h
  | _, _, .named hw hname => attached_of_not_mem (by
      simp [lt_not_mem_of_blanks hw, lt_not_mem_of_isNamePart hname.isNamePart])
  | _, _, .generic hw hname hargs => attached_generic hw hname hargs.attached
  | _, _, @Derives.array _ w w' _ hitem hw hw' => by
      have hsuffix : '<' ∉ w ++ '[' :: (w' ++ [']']) := by
        simp [lt_not_mem_of_blanks hw, lt_not_mem_of_blanks hw']
      exact hitem.attached.append (attached_of_not_mem hsuffix) (noOpening_of_not_mem hsuffix)

/-- In arguments, no blank stands before a `<`. -/
theorem DerivesArgs.attached : {s : List Char} → {args : List TypeTerm} → DerivesArgs s args →
    Attached s
  | _, _, @DerivesArgs.last _ w _ harg hw => by
      have hend : '<' ∉ w ++ ['>'] := by simp [lt_not_mem_of_blanks hw]
      exact harg.attached.append (attached_of_not_mem hend) (noOpening_of_not_mem hend)
  | _, _, @DerivesArgs.more _ w s' _ _ harg hw hargs => by
      have hcomma : '<' ∉ w ++ [','] := by simp [lt_not_mem_of_blanks hw]
      have hstart := harg.attached.append (attached_of_not_mem hcomma)
        (noOpening_of_not_mem hcomma)
      have h := hstart.append hargs.attached hargs.noOpening
      simpa only [List.append_assoc, List.cons_append, List.nil_append] using h

end

/-! ## types with more blanks -/

/-- Blanks before a type belong to it. -/
theorem Derives.prepend {w : List Char} (hw : Blanks w) : {s : List Char} → {term : TypeTerm} →
    Derives s term → Derives (w ++ s) term
  | _, _, .wildcard hv => by
      rw [← List.append_assoc]
      exact .wildcard (hw.append hv)
  | _, _, .bounded hv hv' hkeyword hc hbound => by
      rw [← List.append_assoc]
      exact .bounded (hw.append hv) hv' hkeyword hc hbound
  | _, _, .named hv hname => by
      rw [← List.append_assoc]
      exact .named (hw.append hv) hname
  | _, _, .generic hv hname hargs => by
      rw [← List.append_assoc]
      exact .generic (hw.append hv) hname hargs
  | _, _, .array hitem hv hv' => by
      rw [← List.append_assoc]
      exact .array (hitem.prepend hw) hv hv'

/-- A bound with any blanks after its keyword. -/
theorem Derives.bounded_blanks {w w' v s : List Char} {keyword : String} {bound : TypeTerm}
    (hw : Blanks w) (hw' : Blanks w') (hkeyword : keyword ∈ boundKeywords) (hv : Blanks v)
    (hne : v ≠ []) (hbound : Derives s bound) :
    Derives (w ++ '?' :: (w' ++ (keyword.toList ++ (v ++ s)))) (.bounded bound) := by
  obtain ⟨c, v, rfl⟩ := List.exists_cons_of_ne_nil hne
  obtain ⟨hc, hv⟩ := List.forall_mem_cons.mp hv
  exact .bounded hw hw' hkeyword hc (hbound.prepend hv)

mutual

/-- **More blanks do not change a type**, as long as none stands before a `<`.
The blanks put in behind a type do not belong to it. -/
theorem Derives.exists_spread : {s x : List Char} → {term : TypeTerm} → {before : Option Char} →
    Derives s term → Spread before s x → Attached x → ∃ c v, x = c ++ v ∧ Derives c term ∧ Blanks v
  | _, _, _, _, .wildcard hw, hx, _ => by
      obtain ⟨w, v, hw, rfl, hv⟩ := hx.exists_of_blanks_cons hw
      exact ⟨w ++ ['?'], v, by simp, .wildcard hw, hv.blanks_of_blanks .nil⟩
  | _, _, _, _, .bounded hw hw' hkeyword hc hbound, hx, hattached => by
      obtain ⟨w, _, hw, rfl, htail⟩ := hx.exists_of_blanks_cons hw
      obtain ⟨w', u, _, _, hw', hu, rfl, hword⟩ :=
        htail.exists_of_blanks_word hw' (isNamePart_of_mem_keyword hkeyword)
      obtain ⟨u', rest, hu', rfl, hrest, _⟩ := hword.exists_of_cons
      have hattached := hattached.after.right.right.right.after
      obtain ⟨s, v, rfl, hbound, hv⟩ := hbound.exists_spread hrest hattached
      have hblanks : Blanks (u ++ (u' ++ [_])) :=
        hu.append (hu'.append (List.forall_mem_singleton.mpr hc))
      exact ⟨_, v, by simp, .bounded_blanks hw hw' hkeyword hblanks (by simp) hbound, hv⟩
  | _, _, _, _, @Derives.named _ name hw hname, hx, _ => by
      rw [← List.append_nil name] at hx
      obtain ⟨w, v, rest, _, hw, hv, rfl, hrest⟩ := hx.exists_of_blanks_word hw hname.isNamePart
      exact ⟨_, v ++ rest, by simp, .named hw hname, hv.append (hrest.blanks_of_blanks .nil)⟩
  | _, _, _, _, .generic hw hname hargs, hx, hattached => by
      obtain ⟨w, u, _, _, hw, hu, rfl, htail⟩ := hx.exists_of_blanks_word hw hname.isNamePart
      obtain ⟨u', rest, hu', rfl, hrest, _⟩ := htail.exists_of_cons
      have hopening : Attached ((u ++ u') ++ '<' :: rest) := by
        simpa only [List.append_assoc] using hattached.right.right
      obtain ⟨rfl, rfl⟩ := List.append_eq_nil_iff.mp (hopening.eq_nil (hu.append hu'))
      have hattached := hattached.right.right.right.after
      obtain ⟨s, v, rfl, hargs, hv⟩ := hargs.exists_spread hrest hattached
      exact ⟨_, v, by simp, .generic hw hname hargs, hv⟩
  | _, _, _, _, .array hitem hw hw', hx, hattached => by
      obtain ⟨_, _, _, rfl, hhead, hsuffix⟩ := hx.exists_of_append
      obtain ⟨s, u, rfl, hitem, hu⟩ := hitem.exists_spread hhead hattached.left
      obtain ⟨w, _, hw, rfl, hend⟩ := hsuffix.exists_of_blanks_cons hw
      obtain ⟨w', v, hw', rfl, hv⟩ := hend.exists_of_blanks_cons hw'
      exact ⟨_, v, by simp, .array hitem (hu.append hw) hw', hv.blanks_of_blanks .nil⟩

/-- Arguments with more blanks are the same arguments. -/
theorem DerivesArgs.exists_spread : {s x : List Char} → {args : List TypeTerm} →
    {before : Option Char} → DerivesArgs s args → Spread before s x → Attached x →
      ∃ c v, x = c ++ v ∧ DerivesArgs c args ∧ Blanks v
  | _, _, _, _, .last harg hw, hx, hattached => by
      obtain ⟨_, _, _, rfl, hhead, hend⟩ := hx.exists_of_append
      obtain ⟨s, u, rfl, harg, hu⟩ := harg.exists_spread hhead hattached.left
      obtain ⟨w, v, hw, rfl, hv⟩ := hend.exists_of_blanks_cons hw
      exact ⟨_, v, by simp, .last harg (hu.append hw), hv.blanks_of_blanks .nil⟩
  | _, _, _, _, .more harg hw hargs, hx, hattached => by
      obtain ⟨_, _, _, rfl, hhead, htail⟩ := hx.exists_of_append
      obtain ⟨s, u, rfl, harg, hu⟩ := harg.exists_spread hhead hattached.left
      obtain ⟨w, rest, hw, rfl, hrest⟩ := htail.exists_of_blanks_cons hw
      obtain ⟨s', v, rfl, hargs, hv⟩ := hargs.exists_spread hrest hattached.right.after
      exact ⟨_, v, by simp, .more harg (hu.append hw) hargs, hv⟩

end

/-! ## whole texts -/

/-- **Blanks between tokens do not matter, but before a `<` there are none.**
A text that is a type has no blank before a `<`.  With blanks put in, wherever
this is between its tokens, before them or after them, it is read to the same
tree exactly if still no blank stands before a `<`, and is an error exactly if
one does. -/
theorem parse_spread_iff {text text' : String} {term : TypeTerm} (h : parse text = .ok term)
    (hspread : Spread none text.toList text'.toList) :
    Attached text.toList ∧ (parse text' = .ok term ↔ Attached text'.toList) ∧
      ((∃ fault, parse text' = .error fault) ↔ ¬ Attached text'.toList) := by
  have hattached : ∀ {text : String} {term : TypeTerm}, parse text = .ok term →
      Attached text.toList := by
    intro text term h
    obtain ⟨s, w, htext, hderives, _, hw⟩ := parse_eq_ok h
    have hblanks := lt_not_mem_of_blanks hw
    rw [htext]
    exact hderives.attached.append (attached_of_not_mem hblanks) (noOpening_of_not_mem hblanks)
  have hread : Attached text'.toList → parse text' = .ok term := by
    intro hattached'
    obtain ⟨s, w, htext, hderives, hinner, hw⟩ := parse_eq_ok h
    rw [htext] at hspread
    obtain ⟨x, b, _, htext', hx, hb⟩ := hspread.exists_of_append
    rw [htext'] at hattached'
    obtain ⟨c, v, rfl, hderives', hv⟩ := hderives.exists_spread hx hattached'.left
    rw [List.append_assoc] at htext'
    exact parse_of_derives htext' hderives' hinner (hv.append (hb.blanks_of_blanks hw))
  refine ⟨hattached h, ⟨hattached, hread⟩, ?_, ?_⟩
  · rintro ⟨fault, hfault⟩ hattached'
    rw [hread hattached'] at hfault
    contradiction
  · intro hblank
    cases hparse : parse text' with
    | error fault => exact ⟨fault, rfl⟩
    | ok term' => exact absurd (hattached hparse) hblank

/-- Blanks at every place but one. -/
theorem parse_spread_lowerBound :
    parse " L<\t? super  X [ ] > " = .ok (.named "L" [.bounded (.array (.named "X" []))]) ∧
      ∃ fault, parse "L <?super X[]>" = .error fault := by
  have hitem : Derives "X[]".toList (.array (.named "X" [])) :=
    .array (@Derives.named [] ['X'] .nil (.last (by decide))) .nil .nil
  have hbound : Derives "?super X[]".toList (.bounded (.array (.named "X" []))) :=
    .bounded .nil .nil (List.mem_cons_of_mem _ List.mem_cons_self) (by decide) hitem
  have hargs : DerivesArgs "?super X[]>".toList [.bounded (.array (.named "X" []))] :=
    .last hbound .nil
  have htype : Derives "L<?super X[]>".toList (.named "L" [.bounded (.array (.named "X" []))]) :=
    @Derives.generic [] ['L'] _ _ .nil (.last (by decide)) hargs
  have h : parse "L<?super X[]>" = .ok (.named "L" [.bounded (.array (.named "X" []))]) :=
    parse_of_derives (List.append_nil _).symm htype ⟨⟨rfl, trivial⟩, trivial⟩ .nil
  have hspread : Spread none "L<?super X[]>".toList " L<\t? super  X [ ] > ".toList := by decide
  have hblank : Spread none "L<?super X[]>".toList "L <?super X[]>".toList := by decide
  exact ⟨(parse_spread_iff h hspread).2.1.mpr (by decide),
    (parse_spread_iff h hblank).2.2.mpr (by decide)⟩

end TypeTerm

end Exemplar
