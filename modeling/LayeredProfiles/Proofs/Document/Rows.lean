import LayeredProfiles.Document.Rows
import LayeredProfiles.Proofs.Document.Inline

set_option autoImplicit false

/-!
# The shape of rows

What is given for a row is put into it as it is: names, descriptions and notes, and of the settings the
keys and the texts. So it depends on these texts whether a row is one line, and whether the row of a
parameter has three cells. A setting that is no text is written in compact form, and then it never ends
the line, but it ends the cell with each bar in it.

## Main definitions

* `ParameterDefinition.EndsNoLine`, `ParameterDefinition.EndsNoCell` — parameters whose texts fit into
  a line or a cell.
* `ResolvedProfile.EndsNoLine` — vehicles whose texts fit into a line.

## Main results

* `Document.bars_parameterRow` — how many cells the row of a parameter has.
* `Document.fitsLine_rowBody`, `Document.fitsLine_vehicleBody` — when a row is a single line.
* `Document.rows_are_lines` — both for all parameters, and the same for vehicles.
-/

namespace LayeredProfiles

open Document (OneLine FitsLine)

/-- Nothing of a parameter ends the line of its row. -/
structure ParameterDefinition.EndsNoLine (definition : ParameterDefinition) : Prop where
  /-- The name does not. -/
  name : OneLine definition.name.toList
  /-- The description does not, if there is one. -/
  description : ∀ text ∈ definition.description, OneLine text.toList
  /-- The settings do not: neither a key, nor a value that is a text. -/
  settings : ∀ setting ∈ definition.settings, OneLine setting.1.toList ∧
    ∀ text ∈ setting.2.text?, OneLine text.toList

instance (definition : ParameterDefinition) : Decidable definition.EndsNoLine :=
  decidable_of_iff _ ⟨fun ⟨hname, htext, hsettings⟩ => ⟨hname, htext, hsettings⟩,
    fun h => And.intro h.name (And.intro h.description h.settings)⟩

/-- How many cells the value of a setting ends. -/
def Document.settingBars : Json → Nat
  | .text s => bars s.toList
  | value => value.bars

/-- Nothing of a parameter ends a cell of its row. -/
structure ParameterDefinition.EndsNoCell (definition : ParameterDefinition) : Prop where
  /-- The name does not. -/
  name : Document.bars definition.name.toList = 0
  /-- The description does not, if there is one. -/
  description : ∀ text ∈ definition.description, Document.bars text.toList = 0
  /-- The settings do not: neither a key nor a value. -/
  settings : ∀ setting ∈ definition.settings, Document.bars setting.1.toList = 0 ∧
    Document.settingBars setting.2 = 0

instance (definition : ParameterDefinition) : Decidable definition.EndsNoCell :=
  decidable_of_iff _ ⟨fun ⟨hname, htext, hsettings⟩ => ⟨hname, htext, hsettings⟩,
    fun h => And.intro h.name (And.intro h.description h.settings)⟩

/-- Nothing that is said about a vehicle ends the line of its row. Where nothing more is said, there may
be a carriage return at the end. -/
def ResolvedProfile.EndsNoLine (car : ResolvedProfile) : Prop :=
  match car.note with
  | some note => OneLine car.carModel.toList ∧ FitsLine note.toList
  | none => FitsLine car.carModel.toList

instance (car : ResolvedProfile) : Decidable car.EndsNoLine :=
  match h : car.note with
  | some note => decidable_of_iff (OneLine car.carModel.toList ∧ FitsLine note.toList)
      (by rw [ResolvedProfile.EndsNoLine, h])
  | none => decidable_of_iff (FitsLine car.carModel.toList) (by rw [ResolvedProfile.EndsNoLine, h])

namespace Document

/-! ## Settings -/

/-- A setting in a row. -/
def settingChars (setting : String × Json) : List Char :=
  setting.1.toList ++ ':' :: ' ' :: (settingText setting.2).toList

/-- How many cells the value of a setting ends where it is written. -/
lemma bars_settingText (value : Json) : bars (settingText value).toList = settingBars value := by
  cases value with
  | text s => rfl
  | _ => exact (congrArg bars String.toList_ofList).trans (Json.inline_compact _).bars_eq

/-- The value of a setting ends the line only if it is a text that does. -/
lemma oneLine_settingText {value : Json} :
    OneLine (settingText value).toList ↔ ∀ text ∈ value.text?, OneLine text.toList := by
  cases value with
  | text s => simp [settingText, Json.text?]
  | _ =>
    refine ⟨fun _ text htext => absurd htext (Option.not_mem_none text), fun _ => ?_⟩
    exact (congrArg OneLine String.toList_ofList).mpr (Json.inline_compact _).oneLine

/-- How many cells end behind a setting. -/
lemma bars_settingChars {c : Char} (hbar : c ≠ '|') (hslash : c ≠ '\\') (setting : String × Json)
    (rest : List Char) : bars (settingChars setting ++ c :: rest) =
      bars setting.1.toList + settingBars setting.2 + bars rest := by
  unfold settingChars
  rw [List.append_assoc, List.cons_append, List.cons_append, bars_append_cons (by decide) (by decide),
    bars_cons (by decide) (by decide), bars_append_cons hbar hslash, bars_settingText, Nat.add_assoc]

/-- How many cells end behind settings. -/
lemma bars_settings (settings : List (String × Json)) (rest : List Char) :
    bars (List.intercalate [',', ' '] (settings.map settingChars) ++ ' ' :: rest) =
      (settings.map fun setting => bars setting.1.toList + settingBars setting.2).sum + bars rest := by
  induction settings with
  | nil => exact (bars_cons (by decide) (by decide) rest).trans (Nat.zero_add _).symm
  | cons setting settings ih =>
    rw [List.map_cons, List.map_cons, List.sum_cons]
    cases settings with
    | nil =>
      rw [List.map_nil, List.map_nil, List.intercalate_singleton,
        bars_settingChars (by decide) (by decide), List.sum_nil, Nat.add_zero]
    | cons next settings =>
      rw [List.map_cons, List.intercalate_cons_cons, ← List.map_cons, List.append_assoc,
        List.append_assoc, List.cons_append, bars_settingChars (by decide) (by decide),
        List.cons_append, bars_cons (by decide) (by decide), List.nil_append, ih, ← Nat.add_assoc]

/-- Settings end the line only if one of them does. -/
lemma oneLine_settings {settings : List (String × Json)} :
    OneLine (List.intercalate [',', ' '] (settings.map settingChars)) ↔
      ∀ setting ∈ settings, OneLine setting.1.toList ∧
        ∀ text ∈ setting.2.text?, OneLine text.toList := by
  have hone : ∀ setting : String × Json, OneLine (settingChars setting) ↔
      OneLine setting.1.toList ∧ ∀ text ∈ setting.2.text?, OneLine text.toList := by
    intro setting
    rw [settingChars, oneLine_append, oneLine_cons, oneLine_cons, oneLine_settingText]
    simp
  induction settings with
  | nil => simp
  | cons setting settings ih =>
    refine Iff.trans ?_ List.forall_mem_cons.symm
    cases settings with
    | nil => simpa using hone setting
    | cons next settings =>
      have hseparator : OneLine [',', ' '] := by decide
      rw [List.map_cons, List.map_cons, List.intercalate_cons_cons, oneLine_append, oneLine_append,
        ← List.map_cons]
      exact and_congr ((and_iff_left hseparator).trans (hone setting)) ih

/-! ## Parameters -/

/-- What holds of the empty text holds of a description if it does of one that is there. -/
lemma description_iff {p : String → Prop} (hempty : p "") (description : Option String) :
    p (description.getD "") ↔ ∀ text ∈ description, p text := by
  cases description with
  | none => simp [hempty]
  | some text => simp

/-- The row of a parameter up to its line feed. -/
def rowBody (definition : ParameterDefinition) : List Char :=
  '|' :: ' ' :: '\x60' :: (definition.name.toList ++ '\x60' :: ' ' :: '|' :: ' ' ::
    ((definition.description.getD "").toList ++ ' ' :: '|' :: ' ' ::
      (List.intercalate [',', ' '] (definition.settings.map settingChars) ++ [' ', '|'])))

/-- A row is its body and a line feed. -/
lemma toList_parameterRow (definition : ParameterDefinition) :
    (parameterRow definition).toList = rowBody definition ++ ['\n'] := by
  have hsettings : (definition.settings.map fun setting =>
      (setting.1 ++ ": " ++ settingText setting.2)).map String.toList =
        definition.settings.map settingChars := by
    rw [List.map_map]
    exact List.map_congr_left fun setting _ => by simp [settingChars]
  unfold parameterRow rowBody
  simp only [String.toList_append, String.toList_intercalate, hsettings]
  simp

/-- **How many cells the row of a parameter has**: its own four bars stand around three of them, and
every further bar makes one more. -/
lemma bars_parameterRow (definition : ParameterDefinition) :
    bars (parameterRow definition).toList =
      4 + (bars definition.name.toList + bars (definition.description.getD "").toList +
        (definition.settings.map fun setting =>
          bars setting.1.toList + settingBars setting.2).sum) := by
  rw [toList_parameterRow, rowBody]
  simp only [List.cons_append, List.append_assoc]
  rw [bars_bar, bars_cons (by decide) (by decide), bars_cons (by decide) (by decide),
    bars_append_cons (by decide) (by decide), bars_cons (by decide) (by decide), bars_bar,
    bars_cons (by decide) (by decide), bars_append_cons (by decide) (by decide), bars_bar,
    bars_cons (by decide) (by decide), bars_settings]
  have hend : bars ('|' :: ([] ++ ['\n'])) = 1 := by decide
  rw [hend]
  omega

/-- A row has three cells exactly if nothing of the parameter ends a cell. -/
lemma bars_parameterRow_eq_iff {definition : ParameterDefinition} :
    bars (parameterRow definition).toList = 4 ↔ definition.EndsNoCell := by
  have hdescription := description_iff (p := fun text => bars text.toList = 0) rfl
    definition.description
  rw [bars_parameterRow]
  constructor
  · intro h
    have hsum : (definition.settings.map fun setting =>
        bars setting.1.toList + settingBars setting.2).sum = 0 := by omega
    refine ⟨by omega, hdescription.1 (by omega), fun setting hsetting => ?_⟩
    have hzero := List.sum_eq_zero_iff_forall_eq_nat.1 hsum _ (List.mem_map_of_mem hsetting)
    exact Nat.add_eq_zero_iff.1 hzero
  · intro h
    have hsum : (definition.settings.map fun setting =>
        bars setting.1.toList + settingBars setting.2).sum = 0 := by
      refine List.sum_eq_zero_iff_forall_eq_nat.2 fun n hn => ?_
      obtain ⟨setting, hsetting, rfl⟩ := List.mem_map.1 hn
      exact Nat.add_eq_zero_iff.2 (h.settings setting hsetting)
    rw [h.name, hdescription.2 h.description, hsum]

/-- **When the row of a parameter is a single line**: if nothing of the parameter ends the line. -/
lemma fitsLine_rowBody {definition : ParameterDefinition} :
    FitsLine (rowBody definition) ↔ definition.EndsNoLine := by
  have hdescription := description_iff (p := fun text => OneLine text.toList) oneLine_nil
    definition.description
  have hbar : FitsLine [' ', '|'] := by decide
  have hparts : FitsLine (rowBody definition) ↔ OneLine definition.name.toList ∧
      OneLine (definition.description.getD "").toList ∧
        OneLine (List.intercalate [',', ' '] (definition.settings.map settingChars)) := by
    simp [rowBody, fitsLine_append_cons, hbar]
  rw [hparts, hdescription, oneLine_settings]
  exact ⟨fun ⟨hname, htext, hsettings⟩ => ⟨hname, htext, hsettings⟩,
    fun h => ⟨h.name, h.description, h.settings⟩⟩

/-- The rows of the parameters are the lines of their text exactly if nothing of a parameter ends the
line. -/
lemma linesOf_parameterRows (library : ParameterLibrary) :
    linesOf (parameterRows library).toList =
        library.definitions.map (fun definition => (parameterRow definition).toList) ↔
      ∀ definition ∈ library.definitions, definition.EndsNoLine := by
  rw [parameterRows, String.toList_join, List.flatMap_map,
    linesOf_flatMap_eq_iff toList_parameterRow]
  simp only [fitsLine_rowBody]

/-! ## Vehicles -/

/-- The row of a vehicle up to its line feed. -/
def vehicleBody (car : ResolvedProfile) : List Char :=
  '-' :: ' ' :: (car.carModel.toList ++ (car.note.map fun note => ' ' :: note.toList).getD [])

/-- A row is its body and a line feed. -/
lemma toList_vehicleRow (car : ResolvedProfile) :
    (vehicleRow car).toList = vehicleBody car ++ ['\n'] := by
  unfold vehicleRow vehicleBody
  cases car.note with
  | none => simp
  | some note => simp

/-- **When the row of a vehicle is a single line**: if nothing that is said about it ends the line. -/
lemma fitsLine_vehicleBody {car : ResolvedProfile} :
    FitsLine (vehicleBody car) ↔ car.EndsNoLine := by
  unfold vehicleBody ResolvedProfile.EndsNoLine
  cases car.note with
  | none => simp
  | some note => simp [fitsLine_append_cons]

/-- The rows of the vehicles are the lines of their text exactly if nothing that is said about a vehicle
ends the line. -/
lemma linesOf_vehicleRows (artifact : Artifact) :
    linesOf (vehicleRows artifact).toList =
        artifact.documented.map (fun car => (vehicleRow car).toList) ↔
      ∀ car ∈ artifact.documented, car.EndsNoLine := by
  rw [vehicleRows, String.toList_join, List.flatMap_map, linesOf_flatMap_eq_iff toList_vehicleRow]
  simp only [fitsLine_vehicleBody]

/-! ## The whole -/

/-- **The shape of rows.** The text of all parameters has their rows as its lines, in the order of the
library, exactly if no line feed and no carriage return is in a name, in a description, in the key of a
setting or in a setting that is a text. The row of a parameter has three cells exactly if none of these
texts ends a cell and there is no bar in the strings and keys of the other settings. The text of all
vehicles has the rows of the listed ones as its lines, in the order of the artifact, exactly if no line
feed and no carriage return is in a name or a note, unless the carriage return is the last of all that is
said.

**Proof sketch.** All that the rows add to these texts is printable but for the line feed at the end, and
the four bars are never behind a backslash of a text (`bars_append_cons`). A compact document escapes
line breaks, and it puts backslashes in pairs or in front of another character than a bar
(`Json.inline_compact`). Rows that fit into a line are found again, and what is found fits
(`linesOf_flatMap_eq_iff`). -/
theorem rows_are_lines (library : ParameterLibrary) (artifact : Artifact) :
    (linesOf (parameterRows library).toList =
        library.definitions.map (fun definition => (parameterRow definition).toList) ↔
      ∀ definition ∈ library.definitions, definition.EndsNoLine) ∧
    (∀ definition ∈ library.definitions,
      4 ≤ bars (parameterRow definition).toList ∧
        (bars (parameterRow definition).toList = 4 ↔ definition.EndsNoCell)) ∧
    (linesOf (vehicleRows artifact).toList =
        artifact.documented.map (fun car => (vehicleRow car).toList) ↔
      ∀ car ∈ artifact.documented, car.EndsNoLine) := by
  refine ⟨linesOf_parameterRows library, fun definition _ => ⟨?_, bars_parameterRow_eq_iff⟩,
    linesOf_vehicleRows artifact⟩
  rw [bars_parameterRow]
  exact Nat.le_add_right _ _

/-- A library in which a bar is escaped and a line break stands deep in a setting. -/
def sampleTable : ParameterLibrary :=
  .ofDefinitions [⟨"SOC", some "charge \\| state", [("unit", .text "%"),
      ("notes", .array [.object [("first\nsecond", .text "a\r\nb")], .integer (-3)])]⟩,
    ⟨"ODO", none, []⟩]

/-- An artifact of two vehicles, one of which has a note. -/
def sampleList : Artifact where
  cars := [⟨"EV: Kona", none, [], [], some "(| 2019 |)", true, ⟨"kona.json"⟩⟩,
    ⟨"EV: Leaf\r", none, [], [], none, true, ⟨"leaf.json"⟩⟩]

/-- Both parameters have a line of their own with three cells, and both vehicles a line of their own. -/
theorem rows_are_lines_sampleTable :
    (∀ definition ∈ sampleTable.definitions, definition.EndsNoLine ∧ definition.EndsNoCell) ∧
      (linesOf (parameterRows sampleTable).toList).length = 2 ∧
      (∀ definition ∈ sampleTable.definitions, bars (parameterRow definition).toList = 4) ∧
      (∀ car ∈ sampleList.documented, car.EndsNoLine) ∧
      linesOf (vehicleRows sampleList).toList =
        ["- EV: Kona (| 2019 |)\n".toList, "- EV: Leaf\r\n".toList] := by
  have hfits : ∀ definition ∈ sampleTable.definitions,
      definition.EndsNoLine ∧ definition.EndsNoCell := by decide +kernel
  have hcars : ∀ car ∈ sampleList.documented, car.EndsNoLine := by decide +kernel
  obtain ⟨hlines, hcells, hlisted⟩ := rows_are_lines sampleTable sampleList
  refine ⟨hfits, ?_, fun definition hdefinition => ?_, hcars, ?_⟩
  · rw [hlines.2 fun definition hdefinition => (hfits definition hdefinition).1, List.length_map]
    rfl
  · exact (hcells definition hdefinition).2.2 (hfits definition hdefinition).2
  · rw [hlisted.2 hcars]
    decide +kernel

/-- **Texts end rows.** A bar in a description, in the key of a setting or deep in a setting makes one
more cell, and a line feed in a description or in the name of a vehicle makes one more line. -/
theorem texts_end_rows :
    bars (parameterRow ⟨"SOC", some "a|b", []⟩).toList = 5 ∧
      bars (parameterRow ⟨"SOC", none, [("a|b", .null)]⟩).toList = 5 ∧
      bars (parameterRow ⟨"SOC", none, [("a", .array [.text "a|b"])]⟩).toList = 5 ∧
      (linesOf (parameterRows (.ofDefinitions [⟨"SOC", some "a\nb", []⟩])).toList).length = 2 ∧
      (linesOf (vehicleRows ⟨[⟨"a\nb", none, [], [], none, true, ⟨"a"⟩⟩]⟩).toList).length = 2 := by
  decide +kernel

end Document

end LayeredProfiles
