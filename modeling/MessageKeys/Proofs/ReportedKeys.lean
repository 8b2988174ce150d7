import MessageKeys.Proofs.Collection
import MessageKeys.Proofs.ReportFiles
import MessageKeys.Proofs.Runs
import MessageKeys.Proofs.Traversal

namespace MessageKeys

open Json (Value)

/-- The file can be read as a module in which an occurrence is accepted with this key. -/
def Accepts (fs : FileSystem) (path key : String) : Prop :=
  ∃ text m, fs.readText path = .ok text ∧ parseSource (.ofString text) path = .ok m ∧
    ∃ n ∈ m.occurrences, ∃ o, Verdict (.ofString text) n o ∧ o.acceptedKey? = some key

theorem Collect.mem_extractFiles_keys_iff_accepts {fs : FileSystem} {paths : StringSet}
    {k : String} :
    k ∈ (Collect.extractFiles fs paths.toList).keys ↔ ∃ path ∈ paths, Accepts fs path k := by
  rw [Collect.mem_extractFiles_keys_iff]
  refine exists_congr fun path => and_congr_right fun _ => ?_
  constructor
  · rintro ⟨e, ⟨text, m, hr, hp, rfl⟩, hk⟩
    exact ⟨text, m, hr, hp, Extraction.mem_ofModule_keys_iff.1 hk⟩
  · rintro ⟨text, m, hr, hp, hk⟩
    exact ⟨_, ⟨text, m, hr, hp, rfl⟩, Extraction.mem_ofModule_keys_iff.2 hk⟩

namespace Terminal

open Run ExtractArguments

/-- The keys that the source files of a project give. -/
def acceptedKeys (fs : FileSystem) (a : ExtractArguments) (s : Settings) : Set String :=
  {k | ∃ path ∈ (Scan.run fs (a.scanRoot s) s.includes s.ignores s.ignoreTestFiles).files,
    Accepts fs path k}

/-- The keys that are known: what their file holds, or none. -/
def Known (fs : FileSystem) (a : ExtractArguments) (s : Settings) (known : StringSet) : Prop :=
  match a.existingPath? s with
  | none => known = ∅
  | some path => Catalogue.load fs path = .ok known

theorem known_of_mapM {fs : FileSystem} {a : ExtractArguments} {s : Settings}
    {existing : Option StringSet}
    (h : (a.existingPath? s).mapM (Catalogue.load fs) = .ok existing) :
    Known fs a s (existing.getD ∅) := by
  unfold Known
  cases hp : a.existingPath? s with
  | none =>
    rw [hp] at h
    cases h
    rfl
  | some path =>
    rw [hp, Option.mapM_some] at h
    cases hl : Catalogue.load fs path with
    | error p =>
      rw [hl] at h
      cases h
    | ok known =>
      rw [hl] at h
      cases h
      exact hl

/-- After an extraction that succeeds, the file for keys holds exactly the accepted keys that are
not known, in the byte order of their encodings, and the counts are those of the accepted keys and
of this list. The report's files must not be links; before the run they need not be there. -/
theorem extractCommand_reports_new_keys (a : ExtractArguments) (w w' : Effects)
    (result : CommandResult) (hdry : a.dryRun = false)
    (h : Returns (extractCommand a) w result w') :
    ∃ (loaded : Settings.Loaded) (known : StringSet) (summary : ExtractSummary),
      let s := loaded.settings
      let path := fun name => Path.join (a.reportDir s) name
      Settings.load w.files a.root = .ok loaded ∧ Known w.files a s known ∧
        result.summary = .extract summary ∧
        (acceptedKeys w.files a s).Finite ∧
        summary.keyCount = (acceptedKeys w.files a s).ncard ∧
        ((∀ name ∈ Report.fileNames, w'.files.isLink (path name) = false) →
          ∃ text keys, w'.files.readText (path Report.keysFile) = .ok text ∧
            Value.parse? text.toList = some (.strings keys) ∧
            keys.Pairwise (fun x y => utf8Bytes x < utf8Bytes y) ∧
            (∀ k, k ∈ keys ↔ k ∈ acceptedKeys w.files a s ∧ k ∉ known) ∧
            summary.newKeyCount = keys.length) := by
  obtain ⟨loaded, existing, written, hload, hexisting, hwrite, rfl⟩ := extractCommand_returns h
  rw [hdry, if_neg (by simp)] at hwrite
  -- The keys of the aggregate are the accepted ones; all that follows is stated of these.
  have hkeys : ∀ k, k ∈ _ ↔ k ∈ acceptedKeys w.files a loaded.settings := fun k =>
    Collect.mem_extractFiles_keys_iff_accepts
  have hset : acceptedKeys w.files a loaded.settings = {k | k ∈ _} := (Set.ext hkeys).symm
  refine ⟨loaded, existing.getD ∅, _, hload, known_of_mapM hexisting, rfl, ?_, ?_, fun hlinks => ?_⟩
  · rw [hset]
    exact List.finite_toSet _
  · rw [hset]
    exact StringSet.size_eq_ncard _
  · have hr := Report.readText_keysFile hwrite (Report.keysApart_of_isLink_eq_false hwrite hlinks)
    refine ⟨_, _, hr, Report.parse?_keysText _, StringSet.toList_utf8Bytes_sorted _,
      fun k => ?_, rfl⟩
    rw [Aggregate.newKeys, StringSet.mem_toList, StringSet.mem_diff, hkeys]

/-- A project with settings, one source file and a key that is known already. -/
def smallProject : Effects where
  files := {
    entries := [(["w"], .directory), (["w", "known.json"], .file "[\"a\"]".toUTF8),
      (["w", Settings.fileName],
        .file "\x7b\"existingKeys\": \"known.json\", \"outputDir\": \"out\"\x7d".toUTF8),
      (["w", "app.js"], .file "t(\"b\", t(\"a\")); i18next.t(`c`)".toUTF8)]
    workingDirectory := ["w"] }

def smallResult : CommandResult :=
  .finish (.extract ⟨3, 2, some 1, "out", Report.fileNames.map (Path.join "out"), false⟩)
    [.warning ⟨"c", .templateWithoutExpressions, "./app.js", some 1⟩] 1

def smallLeft : Effects := (ExceptT.run (extractCommand {}) smallProject).2

theorem extractCommand_reports_new_keys_smallProject :
    Returns (extractCommand {}) smallProject smallResult smallLeft ∧
      (∀ name ∈ Report.fileNames, smallLeft.files.isLink (Path.join "out" name) = false) ∧
      ∃ text keys, smallLeft.files.readText (Path.join "out" Report.keysFile) = .ok text ∧
        Value.parse? text.toList = some (.strings keys) ∧ keys.length = 2 ∧ "a" ∉ keys := by
  have hrun : Returns (extractCommand {}) smallProject smallResult smallLeft :=
    Prod.ext (by decide +kernel) (by rw [smallLeft])
  have hlinks : ∀ name ∈ Report.fileNames,
      smallLeft.files.isLink (Path.join "out" name) = false := by decide +kernel
  have hload : (Settings.load smallProject.files (root {})).map
      (fun l => (reportDir {} l.settings, existingPath? {} l.settings)) =
        .ok ("out", some "known.json") := by decide +kernel
  have hknown : Catalogue.load smallProject.files "known.json" = .ok (.ofList ["a"]) := by
    decide +kernel
  refine ⟨hrun, hlinks, ?_⟩
  obtain ⟨loaded, known, summary, hl, hk, hs, -, -, hkeys⟩ :=
    extractCommand_reports_new_keys {} smallProject smallLeft smallResult rfl hrun
  rw [hl] at hload
  obtain ⟨hdir, hpath⟩ := Prod.mk.inj (Except.ok.inj hload)
  rw [Known, hpath] at hk
  obtain rfl := Except.ok.inj (hknown.symm.trans hk)
  obtain rfl := Summary.extract.inj hs
  simp only [hdir] at hkeys
  obtain ⟨text, keys, hr, hp, -, hmem, hcount⟩ := hkeys hlinks
  refine ⟨text, keys, hr, hp, hcount.symm, fun ha => ((hmem "a").1 ha).2 ?_⟩
  exact StringSet.mem_ofList.2 List.mem_cons_self

end Terminal

end MessageKeys
