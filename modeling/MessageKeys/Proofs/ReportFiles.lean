import MessageKeys.Proofs.FileAccess
import MessageKeys.Proofs.JsonText
import MessageKeys.Proofs.StringOrder
import MessageKeys.Keys.Aggregate
import MessageKeys.Project.Catalogue
import MessageKeys.Project.Report

namespace MessageKeys

open Json (Value)

namespace Report

theorem writeFiles_cons_eq_ok_iff {fs fs' : FileSystem} {dir name text : String}
    {rest : List (String × String)} {written : List String} :
    writeFiles fs dir ((name, text) :: rest) = (fs', .ok written) ↔
      ∃ fs₁ others, fs.writeText (Path.join dir name) text = .ok fs₁ ∧
        writeFiles fs₁ dir rest = (fs', .ok others) ∧ written = Path.join dir name :: others := by
  rw [writeFiles.eq_def]
  dsimp only
  cases hw : fs.writeText (Path.join dir name) text with
  | error e => simp
  | ok fs₁ =>
    rcases hr : writeFiles fs₁ dir rest with ⟨fs₂, result⟩
    cases result with
    | error e => simp [hr, Except.map]
    | ok others => simp [hr, Except.map, and_assoc, eq_comm]

section WriteFiles

variable {fs fs' : FileSystem} {dir : String} {files : List (String × String)}
  {written : List String} {other : String}

theorem resolve_of_writeFiles {loc : Location}
    (h : writeFiles fs dir files = (fs', .ok written)) (ho : fs.resolve other = .ok loc) :
    fs'.resolve other = .ok loc := by
  induction files generalizing fs written with
  | nil =>
    cases h
    exact ho
  | cons file rest ih =>
    obtain ⟨fs₁, others, hw, hrest, -⟩ := writeFiles_cons_eq_ok_iff.1 h
    exact ih hrest (FileSystem.resolve_of_writeText hw ho)

theorem readText_of_writeFiles {content : String}
    (h : writeFiles fs dir files = (fs', .ok written)) (ho : fs.readText other = .ok content)
    (hne : ∀ file ∈ files, fs'.resolve (Path.join dir file.1) ≠ fs'.resolve other) :
    fs'.readText other = .ok content := by
  induction files generalizing fs written with
  | nil =>
    cases h
    exact ho
  | cons file rest ih =>
    obtain ⟨fs₁, others, hw, hrest, -⟩ := writeFiles_cons_eq_ok_iff.1 h
    refine ih hrest ?_ fun f hf => hne f (List.mem_cons_of_mem _ hf)
    refine FileSystem.readText_of_writeText_other hw ho fun heq => ?_
    -- Both paths led to the same file in between, and so they do at the end.
    obtain ⟨loc, hloc, -, -⟩ := FileSystem.write_eq_ok_iff.1 hw
    have hloc₁ := FileSystem.resolve_of_writeText hw hloc
    refine hne file List.mem_cons_self ?_
    rw [resolve_of_writeFiles hrest hloc₁, resolve_of_writeFiles hrest (heq.symm.trans hloc₁)]

theorem resolve_written (h : writeFiles fs dir files = (fs', .ok written)) :
    ∀ file ∈ files, ∃ loc, fs'.resolve (Path.join dir file.1) = .ok loc := by
  induction files generalizing fs written with
  | nil => simp
  | cons file rest ih =>
    obtain ⟨fs₁, others, hw, hrest, -⟩ := writeFiles_cons_eq_ok_iff.1 h
    obtain ⟨loc, hloc, -, -⟩ := FileSystem.write_eq_ok_iff.1 hw
    rintro f (_ | ⟨_, hf⟩)
    · exact ⟨loc, resolve_of_writeFiles hrest (FileSystem.resolve_of_writeText hw hloc)⟩
    · exact ih hrest f hf

end WriteFiles

theorem writeFiles_of_write {r : Report} {fs fs' : FileSystem} {dir : String}
    {written : List String} (h : r.write fs dir = (fs', .ok written)) :
    ∃ fs₁, writeFiles fs₁ dir r.files = (fs', .ok written) := by
  unfold write at h
  split at h
  · cases h
  next fs₁ _ => exact ⟨fs₁, h⟩

/-- No other file of the report is the one that holds the keys. -/
def KeysApart (fs : FileSystem) (dir : String) : Prop :=
  ∀ name ∈ [warningsFile, errorsFile],
    fs.resolve (Path.join dir name) ≠ fs.resolve (Path.join dir keysFile)

instance (fs : FileSystem) (dir : String) : Decidable (KeysApart fs dir) :=
  inferInstanceAs (Decidable (∀ name ∈ [warningsFile, errorsFile], _))

def fileNames : List String := [keysFile, warningsFile, errorsFile]

theorem getLast?_of_written {r : Report} {fs fs' : FileSystem} {dir name : String}
    {written : List String} (h : r.write fs dir = (fs', .ok written)) (hname : name ∈ fileNames)
    (hn : fs'.isLink (Path.join dir name) = false) :
    ∃ loc, fs'.resolve (Path.join dir name) = .ok loc ∧ loc.getLast? = some name := by
  obtain ⟨fs₁, hfiles⟩ := writeFiles_of_write h
  obtain ⟨file, hfile, rfl⟩ : ∃ file ∈ r.files, file.1 = name := List.mem_map.1 hname
  obtain ⟨loc, hloc⟩ := resolve_written hfiles file hfile
  have hplain : ∀ n ∈ fileNames, '/' ∉ n.toList ∧ n ≠ "" ∧ n ≠ "." ∧ n ≠ ".." := by decide
  obtain ⟨hslash, hne, hdot, hdots⟩ := hplain _ hname
  obtain ⟨ss, hss⟩ := FileSystem.steps_join hslash hne dir
  exact ⟨loc, hloc, FileSystem.getLast?_of_resolve hss hdot hdots hn hloc⟩

theorem keysApart_of_isLink_eq_false {r : Report} {fs fs' : FileSystem} {dir : String}
    {written : List String} (h : r.write fs dir = (fs', .ok written))
    (hn : ∀ name ∈ fileNames, fs'.isLink (Path.join dir name) = false) : KeysApart fs' dir := by
  intro name hname heq
  have hmem : name ∈ fileNames := List.mem_cons_of_mem _ hname
  obtain ⟨loc, hloc, hlast⟩ := getLast?_of_written h hmem (hn name hmem)
  obtain ⟨loc', hloc', hlast'⟩ := getLast?_of_written h List.mem_cons_self
    (hn keysFile List.mem_cons_self)
  obtain rfl : loc = loc' := by simpa [hloc, hloc'] using heq
  have hkeys : keysFile ∉ [warningsFile, errorsFile] := by decide
  rw [hlast, Option.some.injEq] at hlast'
  exact hkeys (hlast' ▸ hname)

theorem readText_keysFile {r : Report} {fs fs' : FileSystem} {dir : String}
    {written : List String} (h : r.write fs dir = (fs', .ok written)) (ha : KeysApart fs' dir) :
    fs'.readText (Path.join dir keysFile) = .ok ((Value.strings r.keys).pretty ++ "\n") := by
  obtain ⟨fs₁, hfiles⟩ := writeFiles_of_write h
  obtain ⟨fs₂, others, hw, hrest, -⟩ := writeFiles_cons_eq_ok_iff.1 hfiles
  refine readText_of_writeFiles hrest (FileSystem.readText_of_writeText hw) ?_
  intro file hf
  rcases List.mem_pair.1 hf with rfl | rfl
  · exact ha warningsFile (by simp)
  · exact ha errorsFile (by simp)

theorem parse?_keysText (keys : List String) :
    Value.parse? ((Value.strings keys).pretty ++ "\n").toList = some (.strings keys) := by
  have hblank : ∀ c ∈ "\n".toList, Json.isSpace c = true := List.forall_mem_singleton.2 rfl
  rw [String.toList_append]
  exact Json.parse?_pretty (Json.kept_strings _ keys) hblank

end Report

theorem Catalogue.strings_map_string (ss : List String) :
    Catalogue.strings (ss.map Value.string) = .ok ss := by
  induction ss with
  | nil => rfl
  | cons s ss ih =>
    change (Catalogue.strings (ss.map Value.string)).map (s :: ·) = .ok (s :: ss)
    rw [ih]
    rfl

theorem Catalogue.keysOf_strings (ss : List String) :
    Catalogue.keysOf (.strings ss) = .ok (StringSet.ofList ss) := by
  change (Catalogue.strings (ss.map Value.string)).map StringSet.ofList = _
  rw [Catalogue.strings_map_string]
  rfl

theorem Catalogue.load_eq_ok {fs : FileSystem} {path text : String} {v : Value} {keys : StringSet}
    (hr : fs.readText path = .ok text) (hp : Value.parse? text.toList = some v)
    (hk : Catalogue.keysOf v = .ok keys) : Catalogue.load fs path = .ok keys := by
  simp only [Catalogue.load, hr, hp, hk]
  rfl

theorem Aggregate.newKeys_empty (a : Aggregate) : a.newKeys ∅ = a.keys.toList := by
  have h : a.keys.diff ∅ = a.keys :=
    StringSet.ext fun k => by simp [StringSet.mem_diff, StringSet.notMem_empty]
  rw [Aggregate.newKeys, h]

theorem Aggregate.newKeys_self (a : Aggregate) : a.newKeys a.keys = [] := by
  have h : a.keys.diff a.keys = ∅ :=
    StringSet.ext fun k => by simp [StringSet.mem_diff, StringSet.notMem_empty]
  rw [Aggregate.newKeys, h]
  rfl

/-- A report of all keys, read back as known keys, leaves no key to report. -/
theorem load_keysFile_eq (a : Aggregate) (warnings errors : List Record) (fs fs' : FileSystem)
    (dir : String) (written : List String)
    (h : Report.write ⟨a.newKeys ∅, warnings, errors⟩ fs dir = (fs', .ok written))
    (ha : Report.KeysApart fs' dir) :
    Catalogue.load fs' (Path.join dir Report.keysFile) = .ok a.keys ∧ a.newKeys a.keys = [] := by
  refine ⟨?_, a.newKeys_self⟩
  have hr := Report.readText_keysFile h ha
  have hk := Catalogue.keysOf_strings (a.newKeys ∅)
  rw [a.newKeys_empty, StringSet.ofList_toList] at hk
  rw [a.newKeys_empty] at hr
  exact Catalogue.load_eq_ok hr (Report.parse?_keysText _) hk

/-- An empty key, keys that have to be escaped, and one beyond the basic plane. -/
def unusualKeys : Aggregate :=
  ⟨.ofList ["", "a \"quote\"", "back\\slash", "\x01\n\x7f", "\u00e9\u2028", "😀"], [], [], [], 1⟩

/-- What is left when they are reported into a directory that is not there yet. -/
def unusualReported : FileSystem :=
  (Report.write ⟨unusualKeys.newKeys ∅, [], []⟩ ⟨[(["w"], .directory)], ["w"]⟩ "out/i18n").1

theorem load_keysFile_unusualKeys :
    Report.KeysApart unusualReported "out/i18n" ∧
      Catalogue.load unusualReported (Path.join "out/i18n" Report.keysFile) =
        .ok unusualKeys.keys := by
  have ha : Report.KeysApart unusualReported "out/i18n" := by decide +kernel
  have h := load_keysFile_eq unusualKeys [] [] ⟨[(["w"], .directory)], ["w"]⟩ unusualReported
    "out/i18n" ["out/i18n/keys.json", "out/i18n/warnings.json", "out/i18n/errors.json"]
    (Prod.ext (by rw [unusualReported]) (by decide +kernel)) ha
  exact ⟨ha, h.1⟩

/-- A directory in which the file for warnings is a link to the one for keys. -/
def linkedWarnings : FileSystem where
  entries := [(["w"], .directory), (["w", "out"], .directory),
    (["w", "out", Report.warningsFile], .link Report.keysFile)]
  workingDirectory := ["w"]

/-- What is left when a key is reported into it. -/
def linkedReported : FileSystem := (Report.write ⟨["a"], [], []⟩ linkedWarnings "out").1

/-- Through a link, the warnings take the place of the keys. -/
theorem not_load_keysFile_linkedWarnings :
    ¬ ∀ (a : Aggregate) (warnings errors : List Record) (fs fs' : FileSystem) (dir : String)
      (written : List String),
      Report.write ⟨a.newKeys ∅, warnings, errors⟩ fs dir = (fs', .ok written) →
        Catalogue.load fs' (Path.join dir Report.keysFile) = .ok a.keys ∧
          a.newKeys a.keys = [] := by
  intro h
  have hkeys : Aggregate.newKeys ⟨.ofList ["a"], [], [], [], 1⟩ ∅ = ["a"] := by decide
  have hload := (h ⟨.ofList ["a"], [], [], [], 1⟩ [] [] linkedWarnings linkedReported "out"
    ["out/keys.json", "out/warnings.json", "out/errors.json"]
    (Prod.ext (by rw [linkedReported, hkeys]) (by decide +kernel))).1
  have hempty : Catalogue.load linkedReported (Path.join "out" Report.keysFile) = .ok ∅ := by
    decide +kernel
  have hne : (Except.ok ∅ : Except Problem StringSet) ≠ .ok (.ofList ["a"]) := by decide
  exact hne (hempty.symm.trans hload)

end MessageKeys
