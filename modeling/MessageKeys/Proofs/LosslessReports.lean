import MessageKeys.Proofs.ReportFiles

namespace MessageKeys

open Json (Value Kept Limits Layout)

theorem Reason.message_injective : Function.Injective Reason.message := by
  intro a b h
  cases a <;> cases b <;> simp_all [Reason.message]

namespace Record

/-- The object that stands for a record: its line is a number, or a word if it is not known. -/
inductive DescribedBy : Record → Value → Prop
  | line {key reason file n} : DescribedBy ⟨key, reason, file, some n⟩
    (.object [("key", .string key), ("reason", .string reason.message), ("filePath", .string file),
      ("line", .number (.integer n))])
  | noLine {key reason file} : DescribedBy ⟨key, reason, file, none⟩
    (.object [("key", .string key), ("reason", .string reason.message), ("filePath", .string file),
      ("line", .string "unknown")])

theorem describedBy_iff {r : Record} {v : Value} : r.DescribedBy v ↔ r.toJson = v := by
  obtain ⟨key, reason, file, _ | n⟩ := r
  · constructor
    · rintro ⟨⟩
      rfl
    · rintro rfl
      exact .noLine
  · constructor
    · rintro ⟨⟩
      rfl
    · rintro rfl
      exact .line

theorem toJson_injective : Function.Injective toJson := by
  intro r r' h
  obtain ⟨key, reason, file, line⟩ := r
  obtain ⟨key', reason', file', line'⟩ := r'
  simp only [toJson, Value.object.injEq, List.cons.injEq, Prod.mk.injEq, Value.string.injEq,
    true_and, and_true] at h
  obtain ⟨rfl, hreason, rfl, hline⟩ := h
  obtain rfl := Reason.message_injective hreason
  cases line <;> cases line' <;> simp_all [Value.nat]

/-- The number of the line fits in 64 bits. -/
def LineFits (r : Record) : Prop := ∀ n, r.line = some n → n < Nat.pow 2 64

theorem kept_toJson {r : Record} (h : r.LineFits) (depth : Nat) : Kept (depth + 1) r.toJson := by
  have hline : Kept depth ((r.line.map Value.nat).getD (.string unknownLine)) := by
    cases hr : r.line with
    | none => exact .string unknownLine
    | some n => exact .nat (Nat.le_sub_one_of_lt (h n hr))
  refine .object (by simp) fun m hm => ?_
  simp only [List.mem_cons, List.not_mem_nil, or_false] at hm
  rcases hm with rfl | rfl | rfl | rfl
  · exact .string r.key
  · exact .string r.reason.message
  · exact .string r.file
  · exact hline

end Record

namespace Report

/-- No two files of a report are the same file. -/
def FilesApart (fs : FileSystem) (dir : String) : Prop :=
  (fileNames.map fun name => fs.resolve (Path.join dir name)).Nodup

instance (fs : FileSystem) (dir : String) : Decidable (FilesApart fs dir) :=
  inferInstanceAs (Decidable (List.Nodup _))

/-- Each file is left as it was written, if no later one takes its place. -/
theorem readText_written {fs fs' : FileSystem} {dir : String} {files : List (String × String)}
    {written : List String} (h : writeFiles fs dir files = (fs', .ok written))
    (ha : (files.map fun file => fs'.resolve (Path.join dir file.1)).Nodup) :
    ∀ file ∈ files, fs'.readText (Path.join dir file.1) = .ok file.2 := by
  induction files generalizing fs written with
  | nil => simp
  | cons first rest ih =>
    obtain ⟨fs₁, others, hw, hrest, -⟩ := writeFiles_cons_eq_ok_iff.1 h
    rw [List.map_cons, List.nodup_cons] at ha
    intro file hfile
    rcases List.mem_cons.1 hfile with rfl | hfile
    · refine readText_of_writeFiles hrest (FileSystem.readText_of_writeText hw) fun f hf heq => ?_
      exact ha.1 (List.mem_map.2 ⟨f, hf, heq⟩)
    · exact ih hrest ha.2 file hfile

/-- A text that holds a JSON list, with one line feed after it. -/
structure Holds (text : String) (items : List Value) : Prop where
  parse : Value.parse? text.toList = some (.array items)
  lineFeed : ∃ body, text.toList = body ++ [']', '\n'] ∧
    Value.parse? (body ++ [']']) = some (.array items)

theorem holds_text {items : List Value} (h : Kept Limits.kept.depth (.array items)) :
    Holds (files.text (.array items)) items := by
  have hfeed : ∀ c ∈ ['\n'], Json.isSpace c = true := List.forall_mem_singleton.2 rfl
  have hnone : ∀ c ∈ ([] : List Char), Json.isSpace c = true := by simp
  have htext : (files.text (.array items)).toList = (Value.array items).pretty.toList ++ ['\n'] :=
    String.toList_append
  obtain ⟨body, hbody⟩ : ∃ body, (Value.array items).pretty.toList = body ++ [']'] := by
    rw [Value.pretty, String.toList_ofList, Value.write_array]
    exact ⟨'[' :: _, rfl⟩
  refine ⟨?_, body, ?_, ?_⟩
  · rw [htext, Json.parse?_pretty h hfeed]
  · rw [htext, hbody, List.append_assoc, List.singleton_append]
  · rw [← hbody, ← List.append_nil (Value.array items).pretty.toList, Json.parse?_pretty h hnone]

theorem Holds.unique {text : String} {items items' : List Value} (h : Holds text items)
    (h' : Holds text items') : items = items' := by
  have heq := h.parse.symm.trans h'.parse
  simpa using heq

/-- The list that a text holds describes these records, in their order. -/
def HoldsRecords (text : String) (rs : List Record) : Prop :=
  ∃ items, Holds text items ∧ List.Forall₂ Record.DescribedBy rs items

theorem forall₂_describedBy_iff {rs : List Record} {items : List Value} :
    List.Forall₂ Record.DescribedBy rs items ↔ rs.map Record.toJson = items :=
  forall₂_iff_map_eq (fun r v => @Record.describedBy_iff r v) rs items

theorem holdsRecords_text {rs : List Record} (h : ∀ r ∈ rs, r.LineFits) :
    HoldsRecords (files.text (.array (rs.map Record.toJson))) rs := by
  have hkept : Kept Limits.kept.depth (.array (rs.map Record.toJson)) := by
    refine .array fun v hv => ?_
    obtain ⟨r, hr, rfl⟩ := List.mem_map.1 hv
    exact Record.kept_toJson (h r hr) _
  exact ⟨_, holds_text hkept, forall₂_describedBy_iff.2 rfl⟩

theorem HoldsRecords.unique {text : String} {rs rs' : List Record} (h : HoldsRecords text rs)
    (h' : HoldsRecords text rs') : rs = rs' := by
  obtain ⟨items, hitems, hrs⟩ := h
  obtain ⟨items', hitems', hrs'⟩ := h'
  rw [forall₂_describedBy_iff] at hrs hrs'
  apply List.map_injective_iff.2 Record.toJson_injective
  rw [hrs, hrs', hitems.unique hitems']

/-- The three files of a report can be read back: the keys as strings, and each record as an object
that describes it. -/
structure LeftIn (r : Report) (fs : FileSystem) (dir : String) : Prop where
  keys : ∃ text, fs.readText (Path.join dir keysFile) = .ok text ∧ Holds text (r.keys.map .string)
  warnings : ∃ text, fs.readText (Path.join dir warningsFile) = .ok text ∧
    HoldsRecords text r.warnings
  errors : ∃ text, fs.readText (Path.join dir errorsFile) = .ok text ∧ HoldsRecords text r.errors

theorem leftIn_of_write {r : Report} {fs fs' : FileSystem} {dir : String} {written : List String}
    (hlines : ∀ record ∈ r.warnings ++ r.errors, record.LineFits)
    (h : r.write fs dir = (fs', .ok written)) (ha : FilesApart fs' dir) : r.LeftIn fs' dir := by
  obtain ⟨fs₁, hfiles⟩ := writeFiles_of_write h
  have hread := readText_written hfiles ha
  simp only [files, List.forall_mem_cons] at hread
  obtain ⟨hkeys, hwarnings, herrors, -⟩ := hread
  rw [List.forall_mem_append] at hlines
  refine ⟨⟨_, hkeys, ?_⟩, ⟨_, hwarnings, ?_⟩, ⟨_, herrors, ?_⟩⟩
  · exact holds_text (Json.kept_strings _ r.keys)
  · exact holdsRecords_text hlines.1
  · exact holdsRecords_text hlines.2

theorem LeftIn.unique {r r' : Report} {fs fs' : FileSystem} {dir dir' : String}
    (h : r.LeftIn fs dir) (h' : r'.LeftIn fs' dir')
    (hsame : ∀ name ∈ fileNames,
      fs.readText (Path.join dir name) = fs'.readText (Path.join dir' name)) : r = r' := by
  have hone {name text text' : String} (hname : name ∈ fileNames)
      (ht : fs.readText (Path.join dir name) = .ok text)
      (ht' : fs'.readText (Path.join dir' name) = .ok text') : text' = text := by
    rw [hsame name hname, ht'] at ht
    exact Except.ok.inj ht
  obtain ⟨⟨text, ht, hkeys⟩, ⟨textW, htW, hwarnings⟩, ⟨textE, htE, herrors⟩⟩ := h
  obtain ⟨⟨text', ht', hkeys'⟩, ⟨textW', htW', hwarnings'⟩, ⟨textE', htE', herrors'⟩⟩ := h'
  rw [hone (by decide) ht ht'] at hkeys'
  rw [hone (by decide) htW htW'] at hwarnings'
  rw [hone (by decide) htE htE'] at herrors'
  have hstring : Function.Injective Value.string := fun _ _ heq => Value.string.inj heq
  have hk := List.map_injective_iff.2 hstring (hkeys.unique hkeys')
  have hw := hwarnings.unique hwarnings'
  have he := herrors.unique herrors'
  obtain ⟨keys, warnings, errors⟩ := r
  obtain ⟨keys', warnings', errors'⟩ := r'
  cases hk
  cases hw
  cases he
  rfl

end Report

/-- A report that is written into files of its own can be read back from them whole: the keys, and
each record with all that it says. So another report never leaves the same three files, wherever
it is written. -/
theorem Report.write_lossless (r : Report) (fs fs' : FileSystem) (dir : String)
    (written : List String) (hlines : ∀ record ∈ r.warnings ++ r.errors, record.LineFits)
    (h : r.write fs dir = (fs', .ok written)) (ha : FilesApart fs' dir) :
    r.LeftIn fs' dir ∧
    (∀ record record' v, Record.DescribedBy record v → record'.DescribedBy v →
      record = record') ∧
    ∀ (other : Report) (gs gs' : FileSystem) (dir' : String) (written' : List String),
      (∀ record ∈ other.warnings ++ other.errors, record.LineFits) →
      other.write gs dir' = (gs', .ok written') → FilesApart gs' dir' →
      (∀ name ∈ fileNames,
        fs'.readText (Path.join dir name) = gs'.readText (Path.join dir' name)) →
      r = other := by
  have hleft := leftIn_of_write hlines h ha
  refine ⟨hleft, fun record record' v hv hv' => ?_, ?_⟩
  · rw [Record.describedBy_iff] at hv hv'
    exact Record.toJson_injective (hv.trans hv'.symm)
  · intro other gs gs' dir' written' hlines' h' ha' hsame
    exact hleft.unique (leftIn_of_write hlines' h' ha') hsame

def awkwardReport : Report where
  keys := ["", "a \"quote\"", "back\\slash\n\x01", "😀"]
  warnings := [⟨"[\"", .templateWithoutExpressions, "a.ts", some (Nat.pow 2 64 - 1)⟩]
  errors := [⟨"t(\n)", .unsupportedArgument, "b c.ts", none⟩, ⟨"", .complexTransChildren, "", some 0⟩]

def awkwardLeft : FileSystem := (awkwardReport.write ⟨[(["w"], .directory)], ["w"]⟩ "out").1

theorem Report.write_lossless_awkwardReport :
    (∀ record ∈ awkwardReport.warnings ++ awkwardReport.errors, record.LineFits) ∧
      Report.FilesApart awkwardLeft "out" ∧ awkwardReport.LeftIn awkwardLeft "out" := by
  have hlines : ∀ record ∈ awkwardReport.warnings ++ awkwardReport.errors, record.LineFits := by
    simp [awkwardReport, Record.LineFits]
  have ha : Report.FilesApart awkwardLeft "out" := by decide +kernel
  have h := awkwardReport.write_lossless ⟨[(["w"], .directory)], ["w"]⟩ awkwardLeft "out"
    ["out/keys.json", "out/warnings.json", "out/errors.json"] hlines
    (Prod.ext (by rw [awkwardLeft]) (by decide +kernel)) ha
  exact ⟨hlines, ha, h.1⟩

/-- Through a link, the warnings take the place of the keys. -/
theorem Report.not_leftIn_linkedWarnings :
    ¬ ∀ (r : Report) (fs fs' : FileSystem) (dir : String) (written : List String),
      (∀ record ∈ r.warnings ++ r.errors, record.LineFits) →
      r.write fs dir = (fs', .ok written) → r.LeftIn fs' dir := by
  intro h
  have hleft := h ⟨["a"], [], []⟩ linkedWarnings linkedReported "out"
    ["out/keys.json", "out/warnings.json", "out/errors.json"] (by simp)
    (Prod.ext (by rw [linkedReported]) (by decide +kernel))
  obtain ⟨text, hread, hkeys⟩ := hleft.keys
  have hnone : linkedReported.readText (Path.join "out" keysFile) =
      .ok (files.text (.array [])) := by decide +kernel
  rw [hnone] at hread
  cases hread
  have hempty := hkeys.unique (holds_text (.array (by simp)))
  cases hempty

end MessageKeys
