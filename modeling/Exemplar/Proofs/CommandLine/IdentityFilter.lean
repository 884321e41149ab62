import Exemplar.CommandLine.Output
import Exemplar.Proofs.ClassTable.Prelude
import Exemplar.Proofs.Except
import Exemplar.Proofs.Filter.Identity
import Exemplar.Proofs.Registry.Rules
import Exemplar.Proofs.Sampler.Fixed

/-!
# Exemplar.Proofs.CommandLine.IdentityFilter

The command `sample` with the filter `.`, which prints its input.  Every
sample is read back from the text that filters write, since its keys are
different from each other and its numbers are those of initializers and of the
built-in rules; but only samples whose brackets may all be open at once.  So
the filter changes no text, and the command fails where it would not fail
without the filter if a sample is nested more deeply than the reader allows.

* `legible_sampleOf` — samples are read back;
* `resultsOf_dot_eq_ok_iff` — what is printed for one root type;
* `prints_dot_iff` — what is printed.
-/

namespace Exemplar

/-! ## legible samples -/

/-- Every operation on samples keeps values legible. -/
theorem assembles_legible : Json.Assembles Json.Legible Json.Legible where
  keep _ h := h
  null := .null
  string text := .string text
  array _ h := .array h
  object _ hnodup h := .object hnodup h

namespace Registry

/-- The rule is a legible value. -/
def RuleIsLegible (rule : Rule) : Prop := ∃ value, rule = .fixed value ∧ value.Legible

/-- All built-in rules are legible values, if the year is one. -/
theorem legible_builtin {now : ClockReading} (hyear : (Json.ofInt now.year).Legible) :
    (builtin now).All RuleIsLegible :=
  all_builtin ⟨_, rfl, .integer 0 _⟩ ⟨_, rfl, .double readsBack_doubleZero⟩ ⟨_, rfl, .bool false⟩
    (fun text => ⟨_, rfl, .string text⟩) ⟨_, rfl, .array fun _ h => absurd h List.not_mem_nil⟩
    ⟨_, rfl, .object List.nodup_nil fun _ h => absurd h List.not_mem_nil⟩ ⟨_, rfl, hyear⟩

/-- Legible rules give legible values. -/
theorem lookup_yields_legible (text : String) :
    Sampler.Yields (All RuleIsLegible) Json.Legible (lookup text) :=
  lookup_yields_fixed text

end Registry

/-- A scalar is legible if the double in it is. -/
theorem legible_of_checkInitializer {className : String} {fieldDecl : FieldDecl}
    (h : ClassTable.checkInitializer className fieldDecl = .ok ()) {value : Json}
    (hvalue : fieldDecl.initializer = some value)
    (hdouble : ∀ x, value = .number (.double x) → x.ReadsBack) : value.Legible := by
  refine ClassTable.scalar_of_checkInitializer h hvalue .null .bool (fun n hn => ?_) .string
  cases n with
  | integer value fits => exact .integer value fits
  | double x => exact .double (hdouble x hn)

namespace Sampler

/-- Samples are legible if the initializers are. -/
theorem sampleAt_yields_legible {decls : List ClassDecl} {s : Sampler}
    (hbuild : ClassTable.build decls = .ok s.table)
    (hdouble : ∀ decl ∈ decls, ∀ field ∈ decl.fields, ∀ x,
      field.initializer = some (.number (.double x)) → x.ReadsBack)
    (left : Nat) (ty : Ty) (env : Environment Ty) :
    Yields (Registry.All Registry.RuleIsLegible) Json.Legible (s.sampleAt left ty env) := by
  refine sampleAt_yields (Q := fun _ => Json.Legible) (fun _ => assembles_legible) ?_
    (fun text _ => Registry.lookup_yields_legible text) left ty env
  intro info hinfo field hfield value hvalue _
  obtain ⟨decl, hdecl, fieldDecl, hfieldDecl, hinitial, hcheck⟩ :=
    exists_fieldDecl_of_initialValue? hbuild hinfo hfield hvalue
  refine legible_of_checkInitializer hcheck hinitial fun x hx => ?_
  exact hdouble decl hdecl fieldDecl hfieldDecl x (hx ▸ hinitial)

end Sampler

namespace CommandLine

namespace SampleCommand

/-! ## what is printed -/

/-- For the documents the command prints the text. -/
def Prints (command : SampleCommand) (now : ClockReading) (documents : List Document)
    (text : String) : Prop :=
  ∃ table, ClassTable.ofDocuments documents = .ok table ∧ command.text now table = .ok text

/-- The brackets of every sample for the documents may all be open at once. -/
def FitsReader (command : SampleCommand) (now : ClockReading) (documents : List Document) : Prop :=
  ∀ table roots, ClassTable.ofDocuments documents = .ok table →
    command.rootTypes table = .ok roots →
      ∀ root ∈ roots, (command.sampleOf now table root).nesting ≤ nestingLimit

section

variable {command : SampleCommand} {now : ClockReading} {documents : List Document}
  {table : ClassTable}

/-- Samples are read back from their texts. -/
theorem legible_sampleOf (hbuild : ClassTable.ofDocuments documents = .ok table)
    (hdouble : ∀ document ∈ documents, ∀ decl ∈ document.classes, ∀ field ∈ decl.fields, ∀ x,
      field.initializer = some (.number (.double x)) → x.ReadsBack)
    (hyear : ∀ x, Json.ofInt now.year = .number (.double x) → x.ReadsBack) (root : Ty) :
    (command.sampleOf now table root).Legible := by
  have hdecls : ∀ decl ∈ preludeClasses ++ documents.flatMap (·.classes),
      ∀ field ∈ decl.fields, ∀ x,
        field.initializer = some (.number (.double x)) → x.ReadsBack := by
    intro decl hdecl field hfield
    obtain hdecl | hdecl := List.mem_append.mp hdecl
    · rw [ClassTable.fields_of_mem_prelude decl hdecl] at hfield
      exact absurd hfield List.not_mem_nil
    · obtain ⟨document, hdocument, hdecl⟩ := List.mem_flatMap.mp hdecl
      exact hdouble document hdocument decl hdecl field hfield
  have hrules : (command.registry now).All Registry.RuleIsLegible := by
    have hbuiltin := Registry.legible_builtin (Json.legible_ofInt hyear)
    rw [registry]
    split
    · exact hbuiltin
    · exact hbuiltin.withPlaceholder ⟨_, rfl, .string _⟩
  have hsample : Sampler.Yields (Registry.All Registry.RuleIsLegible) Json.Legible
      ((Sampler.mk table .full).sample root) :=
    Sampler.sampleAt_yields_legible (s := ⟨table, .full⟩) hbuild hdecls _ _ _
  obtain ⟨_, hvalue⟩ := hsample _ hrules
  rw [sampleOf]
  cases hrun : (((Sampler.mk table .full).sample root).run (command.registry now)).1 with
  | none => exact .null
  | some value => exact hvalue value hrun

/-- **For one root type** the filter prints the sample, if its brackets may all
be open at once. -/
theorem resultsOf_dot_eq_ok_iff {root : Ty} (h : (command.sampleOf now table root).Legible)
    {printed : List Json} :
    resultsOf { command with filter := some "." } now table root = .ok printed ↔
      (command.sampleOf now table root).nesting ≤ nestingLimit ∧
        resultsOf { command with filter := none } now table root = .ok printed := by
  show (Filter.apply "." (command.sampleOf now table root)).mapError (RunError.filter root) =
    .ok printed ↔
    _ ∧ Except.ok [command.sampleOf now table root] = .ok printed
  by_cases hnesting : (command.sampleOf now table root).nesting ≤ nestingLimit
  · rw [Filter.apply_dot_eq_ok h hnesting]
    exact (and_iff_right hnesting).symm
  · obtain ⟨e, he⟩ := Filter.apply_dot_eq_error h (Nat.not_le.mp hnesting)
    rw [he]
    exact ⟨fun h => by contradiction, fun h => absurd h.1 hnesting⟩

/-- For all root types. -/
theorem results_dot_eq_ok_iff (h : ∀ root, (command.sampleOf now table root).Legible)
    {printed : List (List Json)} :
    results { command with filter := some "." } now table = .ok printed ↔
      results { command with filter := none } now table = .ok printed ∧
        ∀ roots, command.rootTypes table = .ok roots →
          ∀ root ∈ roots, (command.sampleOf now table root).nesting ≤ nestingLimit := by
  have hprints : ∀ roots : List Ty,
      roots.mapM (resultsOf { command with filter := some "." } now table) = .ok printed ↔
        (∀ root ∈ roots, (command.sampleOf now table root).nesting ≤ nestingLimit) ∧
          roots.mapM (resultsOf { command with filter := none } now table) = .ok printed := by
    intro roots
    simp only [Except.mapM_eq_ok_iff, resultsOf_dot_eq_ok_iff (h _), List.forall₂_and_left]
  constructor
  · intro hdot
    obtain ⟨roots, hroots, hprinted⟩ := Except.bind_eq_ok_iff.mp hdot
    obtain ⟨hfits, hprinted⟩ := (hprints roots).mp hprinted
    refine ⟨Except.bind_eq_ok_iff.mpr ⟨roots, hroots, hprinted⟩, fun roots' hroots' => ?_⟩
    cases hroots.symm.trans hroots'
    exact hfits
  · rintro ⟨hnone, hfits⟩
    obtain ⟨roots, hroots, hprinted⟩ := Except.bind_eq_ok_iff.mp hnone
    exact Except.bind_eq_ok_iff.mpr
      ⟨roots, hroots, (hprints roots).mpr ⟨hfits roots hroots, hprinted⟩⟩

/-- **The filter `.`** changes no text: with it the command prints a text for
documents if it does so without a filter and the brackets of every sample may
all be open at once. -/
theorem prints_dot_iff
    (hdouble : ∀ document ∈ documents, ∀ decl ∈ document.classes, ∀ field ∈ decl.fields, ∀ x,
      field.initializer = some (.number (.double x)) → x.ReadsBack)
    (hyear : ∀ x, Json.ofInt now.year = .number (.double x) → x.ReadsBack) (text : String) :
    Prints { command with filter := some "." } now documents text ↔
      Prints { command with filter := none } now documents text ∧
        command.FitsReader now documents := by
  have hlegible : ∀ {table}, ClassTable.ofDocuments documents = .ok table →
      ∀ root, (command.sampleOf now table root).Legible :=
    fun hbuild => legible_sampleOf hbuild hdouble hyear
  constructor
  · rintro ⟨table, hbuild, htext⟩
    obtain ⟨printed, hdot, hprinted⟩ := Except.bind_eq_ok_iff.mp htext
    obtain ⟨hnone, hfits⟩ := (results_dot_eq_ok_iff (hlegible hbuild)).mp hdot
    refine ⟨⟨table, hbuild, Except.bind_eq_ok_iff.mpr ⟨printed, hnone, hprinted⟩⟩, ?_⟩
    intro table' roots hbuild'
    cases hbuild.symm.trans hbuild'
    exact hfits roots
  · rintro ⟨⟨table, hbuild, htext⟩, hfits⟩
    obtain ⟨printed, hnone, hprinted⟩ := Except.bind_eq_ok_iff.mp htext
    have hdot := (results_dot_eq_ok_iff (hlegible hbuild)).mpr
      ⟨hnone, fun roots => hfits table roots hbuild⟩
    exact ⟨table, hbuild, Except.bind_eq_ok_iff.mpr ⟨printed, hdot, hprinted⟩⟩

end

/-! ### the price of something -/

/-- One half. -/
def half : Double := ⟨0x3FE0000000000000, by decide⟩

/-- A class whose field has a double of its own. -/
def priceDecl : ClassDecl where
  name := "Price"
  kind := .ordinary
  typeParameters := []
  extended := []
  implemented := []
  enumConstants := []
  fields := [⟨"amount", "double", false, some (.number (.double half)), []⟩]

/-- What is known of the class in a table. -/
def priceInfo : ClassInfo where
  name := "Price"
  simpleName := "Price"
  kind := .ordinary
  typeParameters := []
  supertypes := []
  enumConstants := []
  fields := [⟨"amount", .primitive "double", some (.number (.double half)), [], false⟩]
  enclosing := none

/-- Prints the price on one line. -/
def priceCommand : SampleCommand where
  model := ⟨["prices.json"], none⟩
  roots := ["Price"]
  filter := none
  placeholder := none
  isCompact := true

/-- The double 0.5 is read back. -/
theorem readsBack_half : half.ReadsBack := by
  have hchars : half.chars = ['0', '.', '5'] := by decide +kernel
  have hdouble : Double.ofDecimal? false 5 (-1) = some half := by
    unfold Double.ofDecimal? scaleByTen
    decide +kernel
  exact Double.readsBack_of_eq (by rw [hchars]; rfl) hdouble

theorem readClass_priceDecl :
    ClassTable.readClass (.of (preludeClasses ++ [priceDecl])) priceDecl = .ok priceInfo := by
  decide +kernel

theorem readsBack_year :
    ∀ x, Json.ofInt ClockReading.evening.year = .number (.double x) → x.ReadsBack := by
  intro x hx
  have hyear : Json.ofInt ClockReading.evening.year = .number (.integer 2024 (by decide)) := rfl
  cases hyear.symm.trans hx

/-- The sample of a price shows its initializer. -/
theorem sampleOf_price {table : ClassTable} (hprice : table.find? "Price" = some priceInfo) :
    priceCommand.sampleOf .evening table (.named "Price" []) =
      .object [("amount", .number (.double half))] := by
  have hfixed : (Registry.builtin .evening).IsFixed := by
    intro name next hrule
    obtain ⟨value, heq, _⟩ :=
      Registry.legible_builtin (Json.legible_ofInt readsBack_year) name _ hrule
    contradiction
  have hnone : (Registry.builtin .evening).answer? (.named "Price" []) = none :=
    Registry.answer?_eq_none_of_rule? (by decide +kernel)
  have hplan : ∀ env, (Sampler.mk table .full).plan env (.named "Price" []) =
      .object priceInfo.fields := by
    intro env
    have hcont : table.containerOf? "Price" 0 = none := by
      simp [ClassTable.containerOf?, ClassTable.libraryOrigin]
    rw [Sampler.plan_of_object hprice (Sampler.firstConstant?_eq_none _ (by decide)) hcont,
      ClassTable.allFields_of_supertypes_eq_nil rfl]
  have hrun : ((Sampler.mk table .full).sample (.named "Price" [])).run (.builtin .evening) =
      (some (.object [("amount", .number (.double half))]), .builtin .evening) :=
    Sampler.run_sampleAt_of_plan hfixed hnone (hplan _) _
  show (((Sampler.mk table .full).sample (.named "Price" [])).run (.builtin .evening)).1.getD
    .null = _
  rw [hrun]
  rfl

/-- The only root type is the price. -/
theorem rootTypes_price {table : ClassTable}
    (hbuild : ClassTable.ofDocuments [⟨[priceDecl]⟩] = .ok table) :
    priceCommand.rootTypes table = .ok [.named "Price" []] := by
  have hnames : table.names = (preludeClasses ++ [priceDecl]).map (·.name) :=
    ClassTable.names_of_build hbuild
  have hroot : table.readRoot "Price" = .ok (.named "Price" []) := by
    rw [ClassTable.readRoot, ClassTable.lookup, hnames]
    decide +kernel
  rw [rootTypes]
  show (do return [← (table.readRoot "Price").mapError _] : Except RunError (List Ty)) = _
  rw [hroot]
  rfl

/-- The declaration of the price makes a table. -/
theorem exists_priceTable : ∃ table, ClassTable.ofDocuments [⟨[priceDecl]⟩] = .ok table ∧
    table.find? "Price" = some priceInfo := by
  obtain ⟨table, hbuild⟩ : ∃ table, ClassTable.ofDocuments [⟨[priceDecl]⟩] = .ok table := by
    refine ClassTable.exists_ofDocuments_iff.mpr ⟨fun decl hdecl => ?_, List.nodup_singleton _⟩
    rw [List.mem_singleton.mp hdecl]
    exact ⟨by decide +kernel, by decide +kernel,
      ClassTable.exists_readClass_iff.mp ⟨priceInfo, readClass_priceDecl⟩⟩
  exact ⟨table, hbuild, (ClassTable.find?_eq_some_iff_of_build hbuild).mpr
    ⟨priceDecl, by simp, rfl, readClass_priceDecl⟩⟩

/-- Without a filter the price is printed. -/
theorem prints_price : Prints { priceCommand with filter := none } .evening [⟨[priceDecl]⟩]
    "\x7b\"amount\":0.5\x7d" := by
  obtain ⟨table, hbuild, hprice⟩ := exists_priceTable
  have hresults : results { priceCommand with filter := none } .evening table =
      .ok [[.object [("amount", .number (.double half))]]] := by
    show priceCommand.rootTypes table >>= _ = _
    rw [rootTypes_price hbuild]
    show Except.ok [[priceCommand.sampleOf .evening table (.named "Price" [])]] = _
    rw [sampleOf_price hprice]
  have htext : textOf .compact [[.object [("amount", .number (.double half))]]] =
      "\x7b\"amount\":0.5\x7d" := by decide +kernel
  refine ⟨table, hbuild, ?_⟩
  rw [SampleCommand.text, hresults, ← htext]
  rfl

/-- The sample of the price is not nested too deeply to be read. -/
theorem fitsReader_price : priceCommand.FitsReader .evening [⟨[priceDecl]⟩] := by
  obtain ⟨table, hbuild, hprice⟩ := exists_priceTable
  intro table' roots hbuild' hroots root hroot
  cases hbuild.symm.trans hbuild'
  cases (rootTypes_price hbuild).symm.trans hroots
  rw [List.mem_singleton.mp hroot, sampleOf_price hprice]
  decide

/-- The filter does not change the price. -/
theorem prints_dot_price :
    (∀ document ∈ ([⟨[priceDecl]⟩] : List Document), ∀ decl ∈ document.classes,
      ∀ field ∈ decl.fields, ∀ x,
        field.initializer = some (.number (.double x)) → x.ReadsBack) ∧
    (∀ x, Json.ofInt ClockReading.evening.year = .number (.double x) → x.ReadsBack) ∧
    Prints { priceCommand with filter := some "." } .evening [⟨[priceDecl]⟩]
      "\x7b\"amount\":0.5\x7d" := by
  have hdouble : ∀ document ∈ ([⟨[priceDecl]⟩] : List Document), ∀ decl ∈ document.classes,
      ∀ field ∈ decl.fields, ∀ x,
        field.initializer = some (.number (.double x)) → x.ReadsBack := by
    simp [priceDecl, readsBack_half]
  refine ⟨hdouble, readsBack_year, ?_⟩
  exact (prints_dot_iff hdouble readsBack_year _).mpr ⟨prints_price, fitsReader_price⟩

end SampleCommand

end CommandLine

end Exemplar
