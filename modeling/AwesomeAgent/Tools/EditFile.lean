import AwesomeAgent.Library.Occurrences
import AwesomeAgent.Tools.ReadFile

/-!
# The edit tool

A text is replaced in a file, at one place or everywhere. The tool counts the places where it
finds the text, each time behind the last one; an edit of one place is refused when it finds more
than one. Places that overlap are not found, so that some ambiguous edits are carried out.
-/

namespace AwesomeAgent.EditFile

open Occurrences (OccursAt count replaceMax)
open ReadFile (ExpectedToolFailure FileFault ToolPresentation WorkspaceFile maxFileBytes)
open Separators (First breakOn)

/-- Most characters of the texts of an edit. -/
def maxEditChars : Nat := 200000

/-- Arguments of the tool. -/
structure EditFileArguments where
  path : Text
  oldString : Text
  newString : Text
  replaceAll : Bool
  old_pos : 1 ≤ oldString.length
  old_short : oldString.length ≤ maxEditChars
  new_short : newString.length ≤ maxEditChars

/-- How an edit is refused. -/
inductive EditFault
  | toolInvariant (message : String)
  | expected (failure : ExpectedToolFailure)

/-- The failure of a fault. -/
def fileFailure (path : Text) : FileFault → ExpectedToolFailure
  | .workspaceFileTooLarge => ⟨.executionFailed, "File exceeds the 1 MiB edit limit.", path⟩
  | .mutationTargetChanged =>
      ⟨.conflict, "Workspace path changed while the file was being opened.", path⟩
  | .expected failure => failure

/-- The new content of a file, and how often the old text was found. -/
def editedContent (data : Bytes) (options : EditFileArguments) (path : Text) :
    Except ExpectedToolFailure (Bytes × Nat) :=
  if data.contains 0 then
    .error ⟨.executionFailed, "Binary files cannot be edited as text.", path⟩
  else
    match decodeUtf8 data with
    | none => .error ⟨.executionFailed, "File is not valid UTF-8 text.", path⟩
    | some text =>
        let occurrences := count options.oldString text
        if occurrences = 0 then .error ⟨.notFound, "Exact text was not found.", path⟩
        else if 1 < occurrences ∧ options.replaceAll = false then
          .error ⟨.conflict,
            "Exact text occurs more than once; set replace_all to continue.", path⟩
        else
          let times := if options.replaceAll then text.length else 1
          .ok (encodeUtf8 (replaceMax options.oldString options.newString times text), occurrences)

/-- What an edit says about itself. -/
structure EditFileMetadata where
  path : Text
  replacements : Nat
  changeSetId : Text

/-- An edit: the content that it puts in place of that of the file, and what it tells. -/
structure EditedFile where
  content : Bytes
  told : Text
  metadata : EditFileMetadata
  presentation : ToolPresentation

/-- Edit a file at a resolved path. -/
def editFile (changeSetId : Option Text) (options : EditFileArguments) (path : Text)
    (file : WorkspaceFile) : Except EditFault EditedFile :=
  match changeSetId with
  | none => .error (.toolInvariant "edit_file requires an open ChangeSet.")
  | some changeSetId => do
      let data ← (file.readRegular maxFileBytes).mapError (.expected ∘ fileFailure path)
      let (content, occurrences) ← (editedContent data options path).mapError .expected
      let replacements := if options.replaceAll then occurrences else 1
      return {
        content := content
        told := "Edited ".toList ++ path ++ ['.']
        metadata := ⟨path, replacements, changeSetId⟩
        presentation := {
          verb := "Edit"
          target := path
          outcome := "Updated"
          summary := Nat.toDigits 10 replacements ++
            (if occurrences = 1 then " replacement" else " replacements").toList
          detail := none } }

/-! ## Edits of one place -/

/-- An edit replaces the old text at the only place where it occurs, and nothing else. -/
def ReplacesOnly (options : EditFileArguments) (data content : Bytes) : Prop :=
  ∃ front back, data = encodeUtf8 (front ++ options.oldString ++ back) ∧
    content = encodeUtf8 (front ++ options.newString ++ back) ∧
    ∀ place, OccursAt options.oldString (front ++ options.oldString ++ back) place ↔
      place = front.length

/-- The old text occurs at several places of a file, all of which overlap. -/
def Overlaps (options : EditFileArguments) (data : Bytes) : Prop :=
  data.length ≤ maxFileBytes ∧ data.contains 0 = false ∧
    ∃ text, decodeUtf8 data = some text ∧
      (∃ place later, OccursAt options.oldString text place ∧
        OccursAt options.oldString text later ∧ place < later) ∧
      ∀ place later, OccursAt options.oldString text place →
        OccursAt options.oldString text later → later < place + options.oldString.length

private theorem EditFileArguments.old_ne_nil (options : EditFileArguments) : options.oldString ≠ []
    :=
  List.length_pos_iff.mp options.old_pos

variable {data : Bytes} {options : EditFileArguments}

private theorem editedContent_ok {content : Bytes} {path : Text}
    {occurrences : Nat} (hone : options.replaceAll = false)
    (h : editedContent data options path = .ok (content, occurrences)) :
    data.contains 0 = false ∧ ∃ text front back, decodeUtf8 data = some text ∧
      First options.oldString text front back ∧ breakOn options.oldString back = none ∧
      content = encodeUtf8 (front ++ options.newString ++ back) := by
  unfold editedContent at h
  split at h
  · cases h
  next htext =>
  refine ⟨Bool.eq_false_iff.mpr htext, ?_⟩
  split at h
  · cases h
  next text hdecoded =>
  dsimp only at h
  split at h
  · cases h
  next hfound =>
  split at h
  · cases h
  next hsingle =>
  have hcount : count options.oldString text = 1 := by
    have hnot : ¬ 1 < count options.oldString text := fun hmany => hsingle ⟨hmany, hone⟩
    omega
  obtain ⟨front, back, hfirst, hlast⟩ :=
    (Occurrences.count_eq_one_iff options.old_ne_nil).mp hcount
  refine ⟨text, front, back, hdecoded, hfirst, hlast, ?_⟩
  rw [hone] at h
  cases h
  exact congrArg encodeUtf8 (Occurrences.replaceMax_one hfirst options.newString)

private theorem editedContent_of_first {path : Text}
    {text front back : Text} (hone : options.replaceAll = false) (hnul : data.contains 0 = false)
    (hdecoded : decodeUtf8 data = some text) (hfirst : First options.oldString text front back)
    (hlast : breakOn options.oldString back = none) :
    editedContent data options path =
      .ok (encodeUtf8 (front ++ options.newString ++ back), 1) := by
  have hcount := (Occurrences.count_eq_one_iff options.old_ne_nil).mpr ⟨front, back, hfirst, hlast⟩
  unfold editedContent
  rw [if_neg (Bool.eq_false_iff.mp hnul), hdecoded]
  dsimp only
  rw [hcount, if_neg Nat.one_ne_zero, if_neg (fun h => Nat.lt_irrefl 1 h.1), hone,
    if_neg Bool.false_ne_true, Occurrences.replaceMax_one hfirst]

private theorem ok_of_mapError {ε δ α : Type} {x : Except ε α} {f : ε → δ} {a : α}
    (h : x.mapError f = .ok a) : x = .ok a := by
  cases x with
  | error e => cases h
  | ok b =>
    cases h
    rfl

private theorem readRegular_ok {read : Bytes} {maxBytes : Nat}
    (h : (WorkspaceFile.regular data).readRegular maxBytes = .ok read) :
    data.length ≤ maxBytes ∧ read = data := by
  unfold WorkspaceFile.readRegular at h
  dsimp only at h
  by_cases hlong : maxBytes < data.length
  · rw [if_pos hlong] at h
    cases h
  · rw [if_neg hlong] at h
    cases h
    exact ⟨Nat.le_of_not_lt hlong, rfl⟩

private theorem editFile_ok {changeSetId path : Text} {edited : EditedFile}
    (h : editFile (some changeSetId) options path (.regular data) = .ok edited) :
    data.length ≤ maxFileBytes ∧
      ∃ occurrences, editedContent data options path = .ok (edited.content, occurrences) := by
  obtain ⟨read, hread, hrest⟩ := except_bind_ok h
  obtain ⟨⟨content, occurrences⟩, hcontent, hedited⟩ := except_bind_ok hrest
  obtain ⟨hsmall, rfl⟩ := readRegular_ok (ok_of_mapError hread)
  cases hedited
  exact ⟨hsmall, occurrences, ok_of_mapError hcontent⟩

private theorem editFile_of_content {changeSetId path : Text} {options : EditFileArguments}
    {data content : Bytes} {occurrences : Nat} (hsmall : data.length ≤ maxFileBytes)
    (h : editedContent data options path = .ok (content, occurrences)) :
    ∃ edited, editFile (some changeSetId) options path (.regular data) = .ok edited ∧
      edited.content = content := by
  have hread : (WorkspaceFile.regular data).readRegular maxFileBytes = .ok data :=
    if_neg (Nat.not_lt.mpr hsmall)
  unfold editFile
  simp only [hread, h, Except.mapError, bind, Except.bind, pure, Except.pure]
  exact ⟨_, rfl, rfl⟩

private theorem encodeUtf8_inj {text other : Text} (h : encodeUtf8 text = encodeUtf8 other) :
    text = other := by
  have hdecoded := congrArg decodeUtf8 h
  rw [decodeUtf8_encodeUtf8, decodeUtf8_encodeUtf8] at hdecoded
  exact Option.some.inj hdecoded

private theorem first_of_overlaps {text : Text} {place : Nat}
    (hplace : OccursAt options.oldString text place)
    (hclose : ∀ place later, OccursAt options.oldString text place →
      OccursAt options.oldString text later → later < place + options.oldString.length) :
    ∃ front back, First options.oldString text front back ∧
      breakOn options.oldString back = none := by
  apply (Occurrences.count_eq_one_iff options.old_ne_nil).mp
  have hsome : count options.oldString text ≠ 0 := by
    intro hzero
    have hnone := (Occurrences.count_eq_zero_iff options.old_ne_nil).mp hzero
    exact Occurrences.not_occursAt hnone place hplace
  have hfew : ¬ 2 ≤ count options.oldString text := by
    rw [Occurrences.two_le_count_iff options.old_ne_nil]
    rintro ⟨place, later, hplace, hlater, hfar⟩
    have hlt := hclose place later hplace hlater
    omega
  omega

/-- An edit of one place that changes a file replaces the only place of the old text, exactly
when the old text does not occur at several places that all overlap. -/
theorem edit_replaces_only_iff (changeSetId path : Text) (options : EditFileArguments)
    (data : Bytes) (hone : options.replaceAll = false) :
    (∀ edited, editFile (some changeSetId) options path (.regular data) = .ok edited →
      edited.content ≠ data → ReplacesOnly options data edited.content) ↔
      options.newString = options.oldString ∨ ¬ Overlaps options data := by
  constructor
  · intro h
    by_contra hcontra
    rw [not_or, not_not] at hcontra
    obtain ⟨hdiffers, hsmall, hnul, text, hdecoded, ⟨place, later, hplace, hlater, hlt⟩, hclose⟩ :=
      hcontra
    obtain ⟨front, back, hfirst, hlast⟩ := first_of_overlaps hplace hclose
    obtain ⟨edited, hedited, hcontent⟩ := editFile_of_content hsmall
      (editedContent_of_first hone hnul hdecoded hfirst hlast)
    have hdata : data = encodeUtf8 text := (encodeUtf8_of_decodeUtf8 hdecoded).symm
    have hchanged : edited.content ≠ data := by
      intro hsame
      rw [hcontent, hdata, hfirst.split] at hsame
      have htext := encodeUtf8_inj hsame
      rw [List.append_assoc, List.append_assoc] at htext
      exact hdiffers (List.append_cancel_right (List.append_cancel_left htext))
    obtain ⟨front', back', hsplit, -, honly⟩ := h edited hedited hchanged
    have htext : text = front' ++ options.oldString ++ back' :=
      encodeUtf8_inj (hdata.symm.trans hsplit)
    rw [← htext] at honly
    have hsame := ((honly place).mp hplace).trans ((honly later).mp hlater).symm
    omega
  · intro hcondition edited hedited hchanged
    obtain ⟨hsmall, occurrences, hcontent⟩ := editFile_ok hedited
    obtain ⟨hnul, text, front, back, hdecoded, hfirst, hlast, hreplaced⟩ :=
      editedContent_ok hone hcontent
    have hdata : data = encodeUtf8 text := (encodeUtf8_of_decodeUtf8 hdecoded).symm
    rw [hfirst.split] at hdata
    refine ⟨front, back, hdata, hreplaced, fun place => ⟨fun hplace => ?_, ?_⟩⟩
    · rw [← hfirst.split] at hplace
      rcases hcondition with hsame | hsingle
      · rw [hsame, ← hdata] at hreplaced
        exact absurd hreplaced hchanged
      · by_contra hother
        have hbounds := Occurrences.overlapping_of_last hlast hfirst hplace
        refine hsingle ⟨hsmall, hnul, text, hdecoded, ⟨front.length, place,
          Occurrences.occursAt_first hfirst, hplace, by omega⟩, fun one two hone htwo => ?_⟩
        have hfrom := Occurrences.overlapping_of_last hlast hfirst hone
        have hto := Occurrences.overlapping_of_last hlast hfirst htwo
        omega
    · rintro rfl
      rw [← hfirst.split]
      exact Occurrences.occursAt_first hfirst

section Sample

/-- An edit of one place that replaces two letters by another one. -/
def sampleEdit : EditFileArguments where
  path := "notes.txt".toList
  oldString := "aa".toList
  newString := "b".toList
  replaceAll := false
  old_pos := by decide
  old_short := by decide
  new_short := by decide

/-- One place of a file is edited. -/
theorem edit_replaces_only_iff_sample : ∃ edited,
    editFile (some "change_1".toList) sampleEdit "notes.txt".toList
      (.regular (encodeUtf8 "caad".toList)) = .ok edited ∧
        ReplacesOnly sampleEdit (encodeUtf8 "caad".toList) edited.content := by
  have hcontent :
      (editedContent (encodeUtf8 "caad".toList) sampleEdit "notes.txt".toList).toOption =
      some (encodeUtf8 "cbd".toList, 1) := by decide
  have hchanged : encodeUtf8 "cbd".toList ≠ encodeUtf8 "caad".toList := by decide
  obtain ⟨edited, hedited, hsame⟩ := @editFile_of_content "change_1".toList _ _ _ _ _ (by decide)
    (except_ok_of_toOption hcontent)
  refine ⟨edited, hedited, (edit_replaces_only_iff _ _ _ _ rfl).mpr (Or.inr ?_) edited hedited
    (hsame ▸ hchanged)⟩
  rintro ⟨-, -, text, hdecoded, ⟨place, later, hplace, hlater, hlt⟩, -⟩
  rw [decodeUtf8_encodeUtf8] at hdecoded
  cases hdecoded
  have honly : ∀ place < 3, ("caad".toList.drop place).take 2 = "aa".toList → place = 1 := by
    decide
  have hbound : later + 2 ≤ 4 := hlater.add_length_le
  have hone := honly place (by omega) hplace.take_drop
  have htwo := honly later (by omega) hlater.take_drop
  omega

/-- A text that overlaps itself: the edit is carried out at the first of two places. -/
theorem overlapping_edit_carried_out : ¬ ∀ (options : EditFileArguments) (data : Bytes) edited,
    options.replaceAll = false →
      editFile (some "change_1".toList) options "notes.txt".toList (.regular data) = .ok edited →
        edited.content ≠ data → ReplacesOnly options data edited.content := by
  intro h
  have hcontent : (editedContent (encodeUtf8 "aaa".toList) sampleEdit "notes.txt".toList).toOption =
      some (encodeUtf8 "ba".toList, 1) := by decide
  have hchanged : encodeUtf8 "ba".toList ≠ encodeUtf8 "aaa".toList := by decide
  obtain ⟨edited, hedited, hsame⟩ := @editFile_of_content "change_1".toList _ _ _ _ _ (by decide)
    (except_ok_of_toOption hcontent)
  obtain ⟨front, back, hsplit, -, honly⟩ := h sampleEdit _ edited rfl hedited (hsame ▸ hchanged)
  rw [← encodeUtf8_inj hsplit] at honly
  have hfirst := (honly 0).mp ⟨[], ['a'], rfl, rfl⟩
  have hsecond := (honly 1).mp ⟨['a'], [], rfl, rfl⟩
  omega

end Sample

end AwesomeAgent.EditFile
