import Exemplar.CommandLine.Command
import Exemplar.Proofs.Except

/-!
# Exemplar.Proofs.CommandLine.Options

Leaving out an option that takes one value.  If arguments can be read, they can
be read without the option and its value, too, and the same values are given
for all other options.  The readings of the two lists of arguments go side by
side: where one reads the option, the other waits, and the option that it has
still open then is finished by the next one.

* `without` — the arguments without an option;
* `Follows` — how the two readings belong together;
* `readArguments_without`, `readOptions_without` — all arguments.
-/

namespace Exemplar.CommandLine

/-! ## leaving out an option -/

/-- The value that an argument attaches to an option, if it mentions the option
at all. -/
def attachment? (form : OptionForm) (argument : String) : Option (Option String) :=
  match ArgumentForm.of argument with
  | .long name attached => if name = form.long then some attached else none
  | .short (letter :: rest) => if form.short = some letter then some (attachedTo rest) else none
  | _ => none

/-- The arguments without an option that takes one value: the value is in the
argument that mentions the option, or it is the next argument. -/
def without (form : OptionForm) : List String → List String
  | [] => []
  | argument :: rest =>
    match attachment? form argument with
    | none => argument :: without form rest
    | some (some _) => without form rest
    | some none =>
      match rest with
      | [] => []
      | _ :: more => without form more

/-- An argument that is not the option stays. -/
theorem without_of_eq_none {form : OptionForm} {argument : String}
    (h : attachment? form argument = none) (rest : List String) :
    without form (argument :: rest) = argument :: without form rest := by
  rw [without.eq_def]
  simp only [h]

/-- An argument with the option and its value goes. -/
theorem without_of_eq_some {form : OptionForm} {argument value : String}
    (h : attachment? form argument = some (some value)) (rest : List String) :
    without form (argument :: rest) = without form rest := by
  rw [without.eq_def]
  simp only [h]

/-- What is given for the other options. -/
def others (form : OptionForm) (given : List (OptionName × List String)) :
    List (OptionName × List String) :=
  given.filter (·.1 ≠ form.name)

/-- Every other option is given as it was. -/
theorem any_others {form : OptionForm} {name : OptionName} (h : name ≠ form.name)
    (given : List (OptionName × List String)) :
    (others form given).any (·.1 = name) = given.any (·.1 = name) := by
  rw [others, List.any_filter]
  congr 1
  funext entry
  by_cases hentry : entry.1 = name
  · simp [hentry, h]
  · simp [hentry]

/-- The option takes one value, and its names and its letter are its own.
Letters without a value ask for a help text. -/
structure IsSeparable (form : OptionForm) (forms : List OptionForm) : Prop where
  arity : form.arity = .one ∨ form.arity = .path
  long : forms.find? (·.long = form.long) = some form
  short {letter : Char} :
    form.short = some letter → forms.find? (·.short = some letter) = some form
  only : ∀ other ∈ forms, other.name = form.name → other = form
  letters : ∀ other ∈ forms, other.short.isSome → other.arity.takesValues ∨ other.arity = .help

/-! ## finishing options -/

/-- The option takes the values, given before or not. -/
def Admits (form : OptionForm) (values : List String) (isGiven : Bool) : Prop :=
  match form.arity with
  | .help | .version => False
  | .flag => isGiven = false
  | .many => values ≠ []
  | .one => values ≠ [] ∧ isGiven = false
  | .path => values ≠ [] ∧ isGiven = false ∧ "" ∉ values

namespace OptionReading

/-- No option is being read. -/
def settled (given : List (OptionName × List String)) : OptionReading := ⟨given, none, false⟩

section

variable {form other : OptionForm} {values : List String} {reading next : OptionReading}
  {given given' : List (OptionName × List String)}

/-- Values are recorded if the option admits them, and then they come last. -/
theorem record_eq_ok_iff : record form values reading = .ok next ↔
    Admits form values (reading.given.any (·.1 = form.name)) ∧
      next = { reading with given := reading.given ++ [(form.name, values)] } := by
  rw [record, Admits]
  cases form.arity with
  | help | version => simp
  | flag | many | one | path => simp; grind

/-- Recording leaves nothing open. -/
theorem record_settled (h : record form values (settled given) = .ok next) :
    next = settled (given ++ [(form.name, values)]) :=
  (record_eq_ok_iff.mp h).2

/-- What is finished is finished, or the option that was read is recorded. -/
theorem exists_settled (h : reading.settle = .ok next) : ∃ given, next = settled given := by
  obtain ⟨given, pending, isOpen⟩ := reading
  cases pending with
  | none => exact ⟨given, (Except.ok.inj h).symm⟩
  | some found => exact ⟨_, record_settled h⟩

/-! ## the other options -/

/-- Another option is recorded as it would be without this one. -/
theorem record_others (hne : other.name ≠ form.name)
    (h : record other values (settled given) = .ok (settled given')) :
    record other values (settled (others form given)) = .ok (settled (others form given')) := by
  obtain ⟨hadmits, heq⟩ := record_eq_ok_iff.mp h
  obtain rfl : given' = given ++ [(other.name, values)] := congrArg OptionReading.given heq
  refine record_eq_ok_iff.mpr ⟨?_, ?_⟩
  · rw [settled, any_others hne]
    exact hadmits
  · rw [others, List.filter_append, List.filter_cons, if_pos (decide_eq_true hne)]
    rfl

/-- Values of the option itself do not count among the others. -/
theorem others_append_self (given : List (OptionName × List String)) (values : List String) :
    others form (given ++ [(form.name, values)]) = others form given := by
  rw [others, List.filter_append, List.filter_cons, if_neg (by simp)]
  exact List.append_nil _

/-- The second reading leaves the option out.  It is where the first one is, or
it comes there by finishing what it reads, and then the first one waits for the
next option. -/
structure Follows (form : OptionForm) (reading reading' : OptionReading) : Prop where
  settle {given : List (OptionName × List String)} :
    reading.settle = .ok (settled given) → reading'.settle = .ok (settled (others form given))
  isOpen : reading.isOpen = true →
    reading' = { reading with given := others form reading.given } ∧
      ∀ found ∈ reading.pending, found.1.name ≠ form.name

/-- After the same options, one reading follows the other. -/
theorem follows_settled (form : OptionForm) (given : List (OptionName × List String)) :
    Follows form (settled given) (settled (others form given)) where
  settle h := by
    cases h
    rfl
  isOpen h := by contradiction

/-- So it does while both wait for values of another option. -/
theorem follows_pending (hne : other.name ≠ form.name) (isOpen : Bool) :
    Follows form ⟨given, some (other, values), isOpen⟩
      ⟨others form given, some (other, values), isOpen⟩ where
  settle h := record_others hne h
  isOpen _ := by
    refine ⟨rfl, fun found hfound => ?_⟩
    cases hfound
    exact hne

variable {reading' : OptionReading}

/-- Both begin another option. -/
theorem Follows.begin (h : Follows form reading reading') (hne : other.name ≠ form.name)
    {attached : Option String} (hnext : reading.begin other attached = .ok next) :
    ∃ next', reading'.begin other attached = .ok next' ∧ Follows form next next' := by
  obtain ⟨found, hsettle, hnext⟩ := Except.bind_eq_ok_iff.mp hnext
  obtain ⟨given, rfl⟩ := exists_settled hsettle
  rw [OptionReading.begin, h.settle hsettle]
  cases attached with
  | none =>
      cases hnext
      exact ⟨_, rfl, follows_pending hne true⟩
  | some value =>
      obtain rfl := record_settled hnext
      exact ⟨_, record_others hne hnext, follows_settled form _⟩

/-- Both meet another flag. -/
theorem Follows.raise (h : Follows form reading reading') (hne : other.name ≠ form.name)
    (hnext : reading.raise other = .ok next) :
    ∃ next', reading'.raise other = .ok next' ∧ Follows form next next' := by
  obtain ⟨found, hsettle, hnext⟩ := Except.bind_eq_ok_iff.mp hnext
  obtain ⟨given, rfl⟩ := exists_settled hsettle
  obtain rfl := record_settled hnext
  rw [OptionReading.raise, h.settle hsettle]
  exact ⟨_, record_others hne hnext, follows_settled form _⟩

/-- Both take a value of another option. -/
theorem Follows.take (h : Follows form reading reading') {value : String}
    (hnext : reading.take value = .ok next) :
    ∃ next', reading'.take value = .ok next' ∧ Follows form next next' := by
  obtain ⟨given, pending, isOpen⟩ := reading
  cases isOpen with
  | false => contradiction
  | true =>
      cases pending with
      | none => contradiction
      | some found =>
          obtain ⟨rfl, hne⟩ := h.isOpen rfl
          cases hnext
          exact ⟨_, rfl, follows_pending (hne found rfl) _⟩

/-! ## the option itself -/

/-- Once the first reading has the option with its value, the second one waits. -/
theorem Follows.waits (h : Follows form reading reading')
    (hsettle : reading.settle = .ok (settled given)) (hclosed : next.isOpen = false)
    (hnext : ∀ {last}, next.settle = .ok last → last = settled (given ++ [(form.name, values)])) :
    Follows form next reading' where
  settle {given'} hlast := by
    obtain rfl : given' = given ++ [(form.name, values)] :=
      congrArg OptionReading.given (hnext hlast)
    rw [others_append_self]
    exact h.settle hsettle
  isOpen hopen := absurd (hclosed.symm.trans hopen) Bool.false_ne_true

/-- The option with an attached value is passed over. -/
theorem Follows.begin_attached (h : Follows form reading reading') {value : String}
    (hnext : reading.begin form (some value) = .ok next) : Follows form next reading' := by
  obtain ⟨found, hsettle, hnext⟩ := Except.bind_eq_ok_iff.mp hnext
  obtain ⟨given, rfl⟩ := exists_settled hsettle
  obtain rfl := record_settled hnext
  exact h.waits hsettle rfl fun hlast => (Except.ok.inj hlast).symm

/-- The option with its value as the next argument is passed over. -/
theorem Follows.begin_take (h : Follows form reading reading') (hmany : form.arity ≠ .many)
    {value : String} {last : OptionReading} (hnext : reading.begin form none = .ok next)
    (hlast : next.take value = .ok last) : Follows form last reading' := by
  obtain ⟨found, hsettle, hnext⟩ := Except.bind_eq_ok_iff.mp hnext
  obtain ⟨given, rfl⟩ := exists_settled hsettle
  cases hnext
  cases hlast
  exact h.waits hsettle (decide_eq_false hmany) record_settled

/-- The option is not finished without a value. -/
theorem settle_begin_ne_ok (harity : form.arity = .one ∨ form.arity = .path)
    (hnext : reading.begin form none = .ok next) (last : OptionReading) :
    next.settle ≠ .ok last := by
  obtain ⟨found, hsettle, hnext⟩ := Except.bind_eq_ok_iff.mp hnext
  obtain ⟨given, rfl⟩ := exists_settled hsettle
  cases hnext
  intro hlast
  obtain ⟨hadmits, _⟩ := record_eq_ok_iff.mp (show record form [] (settled given) = .ok last from
    hlast)
  rw [Admits] at hadmits
  obtain harity | harity := harity
  · rw [harity] at hadmits
    exact hadmits.1 rfl
  · rw [harity] at hadmits
    exact hadmits.1 rfl

end

end OptionReading

/-! ## arguments -/

section

variable {form : OptionForm} {forms : List OptionForm} {reading reading' next : OptionReading}

/-- An option that is found by a test that this one fails has another name. -/
theorem name_ne_of_find? (h : IsSeparable form forms) {p : OptionForm → Bool} {other : OptionForm}
    (hfind : forms.find? p = some other) (hself : p form = false) : other.name ≠ form.name := by
  intro hname
  obtain rfl := h.only other (List.mem_of_find?_eq_some hfind) hname
  exact absurd (List.find?_some hfind) (by rw [hself]; exact Bool.false_ne_true)

/-- Both read the long name of another option. -/
theorem readLong_follows (h : IsSeparable form forms) (hfollows : reading.Follows form reading')
    {name : String} (hname : name ≠ form.long) {attached : Option String}
    (hnext : readLong forms name attached reading = .ok next) :
    ∃ next', readLong forms name attached reading' = .ok next' ∧ next.Follows form next' := by
  rw [readLong] at hnext ⊢
  cases hfind : forms.find? (·.long = name) with
  | none =>
      rw [hfind] at hnext
      contradiction
  | some other =>
      have hne := name_ne_of_find? h hfind (decide_eq_false (Ne.symm hname))
      rw [hfind] at hnext
      dsimp only at hnext ⊢
      split at hnext
      · next hvalues =>
          rw [if_pos hvalues]
          exact hfollows.begin hne hnext
      · next hvalues =>
          split at hnext
          · contradiction
          · next hattached =>
              rw [if_neg hvalues, if_neg hattached]
              exact hfollows.raise hne hnext

/-- Asking for help never goes on. -/
theorem raise_help_ne_ok (hhelp : form.arity = .help) : reading.raise form ≠ .ok next := by
  intro hnext
  obtain ⟨found, _, hnext⟩ := Except.bind_eq_ok_iff.mp hnext
  obtain ⟨hadmits, _⟩ := OptionReading.record_eq_ok_iff.mp hnext
  rw [Admits, hhelp] at hadmits
  exact hadmits

/-- Both read the letters of other options. -/
theorem readShort_follows (h : IsSeparable form forms) (hfollows : reading.Follows form reading')
    {letter : Char} (hletter : form.short ≠ some letter) {rest : List Char}
    (hnext : readShort forms (letter :: rest) reading = .ok next) :
    ∃ next', readShort forms (letter :: rest) reading' = .ok next' ∧ next.Follows form next' := by
  rw [readShort] at hnext ⊢
  cases hfind : forms.find? (·.short = some letter) with
  | none =>
      rw [hfind] at hnext
      contradiction
  | some other =>
      have hne := name_ne_of_find? h hfind (decide_eq_false hletter)
      have hshort := List.find?_some hfind
      rw [decide_eq_true_iff] at hshort
      rw [hfind] at hnext
      dsimp only at hnext ⊢
      split at hnext
      · next hvalues =>
          rw [if_pos hvalues]
          exact hfollows.begin hne hnext
      · next hvalues =>
          -- the letter asks for help, and nothing is read
          obtain ⟨raised, hraise, _⟩ := Except.bind_eq_ok_iff.mp hnext
          obtain hvalues' | hhelp := h.letters other (List.mem_of_find?_eq_some hfind)
            (by rw [hshort]; rfl)
          · exact absurd hvalues' hvalues
          · exact absurd hraise (raise_help_ne_ok hhelp)

theorem ne_nil_of_short {argument : String} {letters : List Char}
    (h : ArgumentForm.of argument = .short letters) : letters ≠ [] := by
  rw [ArgumentForm.of] at h
  split at h
  · contradiction
  · split at h <;> contradiction
  · cases h
    exact List.cons_ne_nil _ _
  · contradiction

/-- Every option finishes the one before it. -/
theorem exists_settle_of_readLong {name : String} {attached : Option String}
    (h : readLong forms name attached reading = .ok next) :
    ∃ finished, reading.settle = .ok finished := by
  rw [readLong] at h
  split at h
  · contradiction
  · split at h
    · obtain ⟨finished, hfinished, _⟩ := Except.bind_eq_ok_iff.mp h
      exact ⟨finished, hfinished⟩
    · split at h
      · contradiction
      · obtain ⟨finished, hfinished, _⟩ := Except.bind_eq_ok_iff.mp h
        exact ⟨finished, hfinished⟩

/-- Before letters are read, what was pending is settled. -/
theorem exists_settle_of_readShort {letters : List Char} (hletters : letters ≠ [])
    (h : readShort forms letters reading = .ok next) :
    ∃ finished, reading.settle = .ok finished := by
  obtain ⟨letter, rest, rfl⟩ := List.exists_cons_of_ne_nil hletters
  rw [readShort] at h
  split at h
  · contradiction
  · split at h
    · obtain ⟨finished, hfinished, _⟩ := Except.bind_eq_ok_iff.mp h
      exact ⟨finished, hfinished⟩
    · obtain ⟨raised, hraised, _⟩ := Except.bind_eq_ok_iff.mp h
      obtain ⟨finished, hfinished, _⟩ := Except.bind_eq_ok_iff.mp hraised
      exact ⟨finished, hfinished⟩

/-- Before the option that is read is finished, only a value can come. -/
theorem exists_take_of_settle {argument : String} {rest : List String} {last : OptionReading}
    (hsettle : ∀ finished, reading.settle ≠ .ok finished)
    (hlast : readArguments forms (argument :: rest) reading = .ok last) :
    ∃ text next, reading.take text = .ok next ∧ readArguments forms rest next = .ok last := by
  rw [readArguments] at hlast
  cases hform : ArgumentForm.of argument with
  | divider =>
      rw [hform] at hlast
      dsimp only at hlast
      split at hlast
      · exact absurd hlast (hsettle last)
      · contradiction
  | long name attached =>
      rw [hform] at hlast
      obtain ⟨next, hnext, _⟩ := Except.bind_eq_ok_iff.mp hlast
      obtain ⟨finished, hfinished⟩ := exists_settle_of_readLong hnext
      exact absurd hfinished (hsettle finished)
  | short letters =>
      rw [hform] at hlast
      obtain ⟨next, hnext, _⟩ := Except.bind_eq_ok_iff.mp hlast
      obtain ⟨finished, hfinished⟩ := exists_settle_of_readShort (ne_nil_of_short hform) hnext
      exact absurd hfinished (hsettle finished)
  | value text =>
      rw [hform] at hlast
      obtain ⟨next, hnext, hrest⟩ := Except.bind_eq_ok_iff.mp hlast
      exact ⟨text, next, hnext, hrest⟩

/-! ### arguments that mention the option -/

theorem takesValues_of_isSeparable (h : IsSeparable form forms) : form.arity.takesValues := by
  obtain harity | harity := h.arity <;> rw [harity] <;> rfl

/-- An argument that mentions the option begins it. -/
theorem readArguments_of_attachment? (h : IsSeparable form forms) {argument : String}
    {attached : Option String} (hmention : attachment? form argument = some attached)
    (rest : List String) : readArguments forms (argument :: rest) reading =
      reading.begin form attached >>= readArguments forms rest := by
  have hvalues := takesValues_of_isSeparable h
  rw [attachment?] at hmention
  rw [readArguments]
  split at hmention
  · next name found hform =>
      rw [hform]
      dsimp only
      split at hmention
      · next hname =>
          cases hmention
          rw [hname, readLong, h.long]
          dsimp only
          rw [if_pos hvalues]
      · contradiction
  · next letter more hform =>
      rw [hform]
      dsimp only
      split at hmention
      · next hletter =>
          cases hmention
          rw [readShort, h.short hletter]
          dsimp only
          rw [if_pos hvalues]
      · contradiction
  · contradiction

/-- At an argument that does not mention the option both readings go on. -/
theorem readArguments_of_attachment?_eq_none (h : IsSeparable form forms)
    (hfollows : reading.Follows form reading') {argument : String}
    (hmention : attachment? form argument = none) {rest rest' : List String}
    {given : List (OptionName × List String)} (hrest : rest = [] → rest' = [])
    (ih : ∀ {next next' : OptionReading}, next.Follows form next' →
      readArguments forms rest next = .ok (.settled given) →
        readArguments forms rest' next' = .ok (.settled (others form given)))
    (hlast : readArguments forms (argument :: rest) reading = .ok (.settled given)) :
    readArguments forms (argument :: rest') reading' = .ok (.settled (others form given)) := by
  rw [attachment?] at hmention
  rw [readArguments] at hlast ⊢
  cases hform : ArgumentForm.of argument with
  | divider =>
      rw [hform] at hlast
      dsimp only at hlast ⊢
      split at hlast
      · next hempty =>
          rw [hrest (List.isEmpty_iff.mp hempty)]
          exact hfollows.settle hlast
      · contradiction
  | long name attached =>
      rw [hform] at hlast hmention
      have hname : name ≠ form.long := fun heq => by
        rw [heq] at hmention
        simp at hmention
      obtain ⟨next, hnext, hmore⟩ := Except.bind_eq_ok_iff.mp hlast
      obtain ⟨next', hnext', hfollows'⟩ := readLong_follows h hfollows hname hnext
      exact Except.bind_eq_ok_iff.mpr ⟨next', hnext', ih hfollows' hmore⟩
  | short letters =>
      obtain ⟨letter, more, rfl⟩ := List.exists_cons_of_ne_nil (ne_nil_of_short hform)
      rw [hform] at hlast hmention
      have hletter : form.short ≠ some letter := fun heq => by simp [heq] at hmention
      obtain ⟨next, hnext, hmore⟩ := Except.bind_eq_ok_iff.mp hlast
      obtain ⟨next', hnext', hfollows'⟩ := readShort_follows h hfollows hletter hnext
      exact Except.bind_eq_ok_iff.mpr ⟨next', hnext', ih hfollows' hmore⟩
  | value text =>
      rw [hform] at hlast
      obtain ⟨next, hnext, hmore⟩ := Except.bind_eq_ok_iff.mp hlast
      obtain ⟨next', hnext', hfollows'⟩ := hfollows.take hnext
      exact Except.bind_eq_ok_iff.mpr ⟨next', hnext', ih hfollows' hmore⟩

/-- **Reading without the option**: the same is given for the other options. -/
theorem readArguments_without (h : IsSeparable form forms) {arguments : List String}
    {given : List (OptionName × List String)} (hfollows : reading.Follows form reading')
    (hlast : readArguments forms arguments reading = .ok (.settled given)) :
    readArguments forms (without form arguments) reading' =
      .ok (.settled (others form given)) := by
  induction arguments using without.induct form generalizing reading reading' with
  | case1 => exact hfollows.settle hlast
  | case2 argument rest hmention ih =>
      rw [without_of_eq_none hmention]
      refine readArguments_of_attachment?_eq_none h hfollows hmention ?_ ih hlast
      rintro rfl
      rfl
  | case3 argument rest value hmention ih =>
      rw [readArguments_of_attachment? h hmention] at hlast
      obtain ⟨next, hnext, hmore⟩ := Except.bind_eq_ok_iff.mp hlast
      rw [without_of_eq_some hmention]
      exact ih (hfollows.begin_attached hnext) hmore
  | case4 argument hmention =>
      rw [readArguments_of_attachment? h hmention] at hlast
      obtain ⟨next, hnext, hmore⟩ := Except.bind_eq_ok_iff.mp hlast
      exact absurd hmore (OptionReading.settle_begin_ne_ok h.arity hnext _)
  | case5 argument hmention value more ih =>
      rw [readArguments_of_attachment? h hmention] at hlast
      obtain ⟨next, hnext, hmore⟩ := Except.bind_eq_ok_iff.mp hlast
      obtain ⟨text, last, htake, hmore⟩ :=
        exists_take_of_settle (OptionReading.settle_begin_ne_ok h.arity hnext) hmore
      rw [without, hmention]
      refine ih (hfollows.begin_take ?_ hnext htake) hmore
      obtain harity | harity := h.arity <;> rw [harity] <;> decide

/-- After all arguments nothing is open. -/
theorem exists_settled_of_readArguments {arguments : List String} {last : OptionReading}
    (h : readArguments forms arguments reading = .ok last) :
    ∃ given, last = .settled given := by
  induction arguments generalizing reading with
  | nil => exact OptionReading.exists_settled h
  | cons argument rest ih =>
      rw [readArguments] at h
      split at h
      · split at h
        · exact OptionReading.exists_settled h
        · contradiction
      all_goals
        obtain ⟨next, _, hrest⟩ := Except.bind_eq_ok_iff.mp h
        exact ih hrest

/-- The option can be left out, and so it is not given. -/
theorem readOptions_without (h : IsSeparable form forms) (hrequired : form.isRequired = false)
    {arguments : List String} {given : List (OptionName × List String)}
    (hgiven : readOptions forms arguments = .ok given) :
    readOptions forms (without form arguments) = .ok (others form given) := by
  obtain ⟨last, hlast, hall⟩ := Except.bind_eq_ok_iff.mp hgiven
  obtain ⟨found, rfl⟩ := exists_settled_of_readArguments hlast
  have hothers := readArguments_without h (OptionReading.follows_settled form []) hlast
  refine Except.bind_eq_ok_iff.mpr ⟨_, hothers, ?_⟩
  dsimp only [OptionReading.settled] at hall ⊢
  split at hall
  · next hforms =>
      obtain rfl : found = given := Except.ok.inj hall
      refine if_pos (List.all_eq_true.mpr fun other hother => ?_)
      have hother' := List.all_eq_true.mp hforms other hother
      by_cases hname : other.name = form.name
      · rw [h.only other hother hname, hrequired]
        rfl
      · rw [any_others hname]
        exact hother'
  · contradiction

end

/-! ## commands -/

/-- The option for the file to write. -/
def outForm : OptionForm := ⟨.out, "out", some 'o', .path, false⟩

/-- The arguments without the file to write. -/
def withoutOut (arguments : List String) : List String := without outForm arguments

/-- The output file can be left out of the options of `sample`. -/
theorem isSeparable_sample : IsSeparable outForm sampleForms where
  arity := .inr rfl
  long := by decide
  short h := by
    cases h
    decide
  only := by decide
  letters := by decide

/-- The output file can be left out of the options of `classes`. -/
theorem isSeparable_classes : IsSeparable outForm classesForms where
  arity := .inr rfl
  long := by decide
  short h := by
    cases h
    decide
  only := by decide
  letters := by decide

section

variable {form : OptionForm} {name : OptionName}

/-- Leaving an option out keeps the values of the others. -/
theorem valuesOf_others (h : name ≠ form.name) (given : List (OptionName × List String)) :
    valuesOf (others form given) name = valuesOf given name := by
  rw [valuesOf, valuesOf, others, List.filter_filter]
  congr 1
  refine List.filter_congr fun entry _ => ?_
  by_cases hentry : entry.1 = name
  · simp [hentry, h]
  · simp [hentry]

/-- Leaving an option out keeps whether another is given. -/
theorem isGiven_others (h : name ≠ form.name) (given : List (OptionName × List String)) :
    isGiven (others form given) name = isGiven given name :=
  any_others h given

theorem valuesOf_others_self (given : List (OptionName × List String)) :
    valuesOf (others form given) form.name = [] := by
  rw [valuesOf, others, List.filter_filter]
  simp

end

/-- The command reads the same options as without the file to write. -/
theorem commandOf_others (task : Task) (given : List (OptionName × List String)) :
    commandOf task (others outForm given) = { commandOf task given with out := none } := by
  rw [commandOf, commandOf, isGiven_others (by decide)]
  have hout : valuesOf (others outForm given) .out = [] := valuesOf_others_self given
  rw [hout]
  rfl

/-- The documents do not depend on the output file. -/
theorem modelOptions_others (given : List (OptionName × List String)) :
    modelOptions (others outForm given) = modelOptions given := by
  rw [modelOptions, modelOptions, valuesOf_others (by decide), valuesOf_others (by decide)]

/-- Without the output file, the same samples are asked for. -/
theorem readSample_withoutOut {arguments : List String} {command : Command}
    (h : readSample arguments = .ok command) :
    readSample (withoutOut arguments) = .ok { command with out := none } := by
  obtain ⟨given, hgiven, h⟩ := Except.bind_eq_ok_iff.mp h
  cases h
  refine Except.bind_eq_ok_iff.mpr
    ⟨_, readOptions_without isSeparable_sample rfl hgiven, congrArg Except.ok ?_⟩
  rw [commandOf_others, modelOptions_others, valuesOf_others (by decide),
    valuesOf_others (by decide), valuesOf_others (by decide), isGiven_others (by decide)]

/-- Without the output file, the same list is asked for. -/
theorem readClasses_withoutOut {arguments : List String} {command : Command}
    (h : readClasses arguments = .ok command) :
    readClasses (withoutOut arguments) = .ok { command with out := none } := by
  obtain ⟨given, hgiven, h⟩ := Except.bind_eq_ok_iff.mp h
  cases h
  refine Except.bind_eq_ok_iff.mpr
    ⟨_, readOptions_without isSeparable_classes rfl hgiven, congrArg Except.ok ?_⟩
  rw [commandOf_others, modelOptions_others, isGiven_others (by decide)]

/-- **Without a file to write** the same task is read. -/
theorem read_withoutOut {arguments : List String} {command : Command}
    (h : Command.read arguments = .ok command) :
    Command.read (withoutOut arguments) = .ok { command with out := none } := by
  cases arguments with
  | nil => contradiction
  | cons argument rest =>
      -- the name of the command comes first, and it does not mention an option
      have hword : ∀ {word}, ArgumentForm.of argument = .value word →
          withoutOut (argument :: rest) = argument :: withoutOut rest := by
        intro word hform
        exact without_of_eq_none (by rw [attachment?, hform]) rest
      rw [Command.read] at h
      split at h
      · contradiction
      · obtain ⟨_, _, h⟩ := Except.bind_eq_ok_iff.mp h
        contradiction
      · obtain ⟨_, _, h⟩ := Except.bind_eq_ok_iff.mp h
        contradiction
      · next hform =>
          rw [hword hform, Command.read, hform]
          exact readSample_withoutOut h
      · next hform =>
          rw [hword hform, Command.read, hform]
          exact readClasses_withoutOut h
      · contradiction
      · contradiction

end Exemplar.CommandLine
