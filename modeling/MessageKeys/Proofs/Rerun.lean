import MessageKeys.Proofs.Collection
import MessageKeys.Proofs.Expansion
import MessageKeys.Proofs.Footprint

namespace MessageKeys

open FileSystem

namespace FileSystem

theorem readText_congr {fs fs' : FileSystem} {path : String} (h : fs'.stat path = fs.stat path) :
    fs'.readText path = fs.readText path := by
  rw [readText, read, h, readText, read]

theorem resolve_of_pathExists {fs : FileSystem} (hfs : fs.LinkFree) {path : String}
    (h : fs.pathExists path = true) : fs.resolve path = .ok (fs.destination path) := by
  obtain ⟨hpath, hreach, -⟩ := (pathExists_iff hfs).1 h
  exact (locate_eq_ok_iff hfs).2 ⟨hpath, hreach, rfl⟩

section SameBut

variable {changed : Location → Prop} {fs fs' : FileSystem} (hfs : fs.LinkFree)
  (h : SameBut changed fs fs') {path : String} (hpath : ¬ changed (fs.destination path))
include hfs h hpath

theorem SameBut.pathExists_eq : fs'.pathExists path = fs.pathExists path := by
  rw [Bool.eq_iff_iff, pathExists_iff (hfs.of_sameBut h), pathExists_iff hfs, h.reachable_iff,
    h.destination_eq, h.get?_eq_of_not hpath]

theorem SameBut.stat_eq (hexists : fs.pathExists path = true) : fs'.stat path = fs.stat path := by
  obtain ⟨hne, hreach, hsome⟩ := (pathExists_iff hfs).1 hexists
  obtain ⟨e, he⟩ := Option.isSome_iff_exists.1 hsome
  rw [(stat_eq_ok_iff hfs).2 ⟨hne, hreach, rfl, he⟩]
  refine (stat_eq_ok_iff (hfs.of_sameBut h)).2
    ⟨hne, h.reachable hreach, (h.destination_eq path).symm, ?_⟩
  rw [h.get?_eq_of_not hpath, he]

end SameBut

theorem pathExists_of_readText {fs : FileSystem} {path text : String}
    (h : fs.readText path = .ok text) : fs.pathExists path = true := by
  unfold readText read at h
  cases hstat : fs.stat path with
  | error e =>
    rw [hstat] at h
    cases h
  | ok found => rw [pathExists, hstat]; rfl

end FileSystem

namespace Settings

section SameBut

variable {changed : Location → Prop}
  (hchanged : ∀ dir, ¬ changed (dir ++ [fileName]) ∧ ¬ changed (dir ++ [".git"]))
include hchanged

theorem not_changed_join (fs : FileSystem) (dir : String) :
    ¬ changed (fs.destination (Path.join dir fileName)) ∧
      ¬ changed (fs.destination (Path.join dir ".git")) := by
  rw [destination_join_name (by decide), destination_join_name (by decide)]
  exact hchanged _

variable {fs fs' : FileSystem} (hfs : fs.LinkFree) (h : SameBut changed fs fs')
include hfs h

theorem findFrom_eq_of_sameBut (fuel : Nat) (dir : String) :
    findFrom fs' fuel dir = findFrom fs fuel dir := by
  induction fuel generalizing dir with
  | zero => rfl
  | succ fuel ih =>
    obtain ⟨hsettings, hgit⟩ := not_changed_join hchanged fs dir
    rw [findFrom, findFrom, h.pathExists_eq hfs hsettings, h.pathExists_eq hfs hgit]
    cases Path.parent? dir with
    | none => rfl
    | some around => simp only [Option.bind_some, ih around]

end SameBut

theorem of_findFrom_eq_some {fs : FileSystem} {fuel : Nat} {dir path : String}
    (h : findFrom fs fuel dir = some path) :
    fs.pathExists path = true ∧ ∃ around, path = Path.join around fileName := by
  induction fuel generalizing dir with
  | zero => cases h
  | succ fuel ih =>
    rw [findFrom] at h
    split at h
    next hexists =>
      cases h
      exact ⟨hexists, dir, rfl⟩
    · split at h
      · cases h
      · obtain ⟨around, -, h⟩ := Option.bind_eq_some_iff.1 h
        exact ih h

/-- Settings are read as before if neither they nor the start of a repository was written. -/
theorem load_eq_of_sameBut {changed : Location → Prop} {fs fs' : FileSystem} (hfs : fs.LinkFree)
    (h : SameBut changed fs fs')
    (hchanged : ∀ dir, ¬ changed (dir ++ [fileName]) ∧ ¬ changed (dir ++ [".git"]))
    (dir : String) : load fs' dir = load fs dir := by
  have hfind : find? fs' dir = find? fs dir := findFrom_eq_of_sameBut hchanged hfs h _ dir
  rw [load, load, hfind]
  cases hfound : find? fs dir with
  | none => rfl
  | some path =>
    obtain ⟨hexists, around, rfl⟩ := of_findFrom_eq_some hfound
    have hstat := h.stat_eq hfs (not_changed_join hchanged fs around).1 hexists
    simp only [loadFile, readText_congr hstat]

end Settings

namespace Catalogue

theorem pathExists_of_load {fs : FileSystem} {path : String} {keys : StringSet}
    (h : load fs path = .ok keys) : fs.pathExists path = true := by
  rw [load] at h
  split at h
  · cases h
  next text htext => exact pathExists_of_readText htext

theorem mapM_load_of_sameBut {changed : Location → Prop} {fs fs' : FileSystem}
    (hfs : fs.LinkFree) (h : SameBut changed fs fs') {path : Option String}
    {existing : Option StringSet} (hload : path.mapM (load fs) = .ok existing)
    (hpath : ∀ p ∈ path, fs.pathExists p = true → ¬ changed (fs.destination p)) :
    path.mapM (load fs') = .ok existing := by
  cases path with
  | none => exact hload
  | some p =>
    obtain ⟨keys, hkeys, hexisting⟩ := bind_eq_ok_iff.1 hload
    have hexists := pathExists_of_load hkeys
    have hread : fs'.readText p = fs.readText p :=
      readText_congr (h.stat_eq hfs (hpath p rfl hexists) hexists)
    have hkeys' : load fs' p = .ok keys := by rwa [load, hread, ← load]
    exact bind_eq_ok_iff.2 ⟨keys, hkeys', hexisting⟩

end Catalogue

theorem Collect.extractFiles_congr {fs fs' : FileSystem} {paths : List String}
    (h : ∀ path ∈ paths, fs'.readText path = fs.readText path) :
    Collect.extractFiles fs' paths = Collect.extractFiles fs paths := by
  rw [Collect.extractFiles, Collect.extractFiles]
  refine congrArg _ (List.map_congr_left fun path hpath => ?_)
  rw [Collect.extractFile, Collect.extractFile, h path ((Collect.sortPaths_perm paths).mem_iff.1 hpath)]

namespace Report

theorem written_eq {fs fs' : FileSystem} {dir : String} {files : List (String × String)}
    {written : List String} (h : writeFiles fs dir files = (fs', .ok written)) :
    written = files.map fun file => Path.join dir file.1 := by
  induction files generalizing fs written with
  | nil =>
    cases h
    rfl
  | cons file rest ih =>
    obtain ⟨fs₁, others, -, hrest, rfl⟩ := writeFiles_cons_eq_ok_iff.1 h
    rw [List.map_cons, ih hrest]

theorem writeFiles_of_content {fs : FileSystem} (hfs : fs.LinkFree) {dir : String}
    (hreach : fs.Reachable dir) (hdir : fs.get? (fs.destination dir) = some .directory)
    {files : List (String × String)} (hnames : ∀ file ∈ files, IsName file.1)
    (hcontent : ∀ file ∈ files,
      fs.get? (fs.destination dir ++ [file.1]) = some (.file file.2.toUTF8)) :
    writeFiles fs dir files = (fs, .ok (files.map fun file => Path.join dir file.1)) := by
  induction files with
  | nil => rfl
  | cons file rest ih =>
    rw [List.forall_mem_cons] at hnames hcontent
    refine writeFiles_cons_eq_ok_iff.2 ⟨fs, _, ?_, ih hnames.2 hcontent.2, rfl⟩
    refine (writeText_join_eq_ok_iff hfs dir hnames.1).2
      ⟨hreach, hdir, .inr ⟨_, hcontent.1⟩, ?_⟩
    rw [set_eq_self (by simp) hcontent.1]

theorem of_write_eq_ok {r : Report} {fs fs' : FileSystem} (hfs : fs.LinkFree) {dir : String}
    (hdir : dir = "" ∨ fs.isDirectory dir = true) {written : List String}
    (h : r.write fs dir = (fs', .ok written)) :
    (fs.Reachable dir ∧ fs.get? (fs.destination dir) = some .directory) ∧
      SameBut (OneOf r.files (fs.destination dir)) fs fs' ∧
      (∀ file ∈ r.files,
        fs'.get? (fs.destination dir ++ [file.1]) = some (.file file.2.toUTF8)) ∧
      written = r.files.map fun file => Path.join dir file.1 := by
  have hfiles : writeFiles fs dir r.files = (fs', .ok written) := by
    rwa [write, makeDirectoryAll_of_there hfs hdir] at h
  obtain ⟨n, -, hsame, hcontent, hall⟩ := writeFiles_spec hfs dir
    (fun _ => isName_of_mem_files (r := r)) r.nodup_files
  rw [hfiles] at hsame hcontent hall
  rw [hall.2 ⟨written, rfl⟩, List.take_length] at hsame hcontent
  obtain ⟨fs₁, others, hfirst, -, -⟩ := writeFiles_cons_eq_ok_iff.1 hfiles
  obtain ⟨hreach, hget, -, -⟩ := (writeText_join_eq_ok_iff hfs dir (by decide)).1 hfirst
  exact ⟨⟨hreach, hget⟩, hsame, hcontent, written_eq hfiles⟩

/-- A report that was written is written again without any change. -/
theorem write_again {r : Report} {fs fs' : FileSystem} (hfs : fs.LinkFree) {dir : String}
    (hdir : dir = "" ∨ fs.isDirectory dir = true) {written : List String}
    (h : r.write fs dir = (fs', .ok written)) : r.write fs' dir = (fs', .ok written) := by
  obtain ⟨⟨hreach, hget⟩, hsame, hcontent, rfl⟩ := of_write_eq_ok hfs hdir h
  have hfs' := hfs.of_sameBut hsame
  rw [← hsame.isDirectory_eq hfs] at hdir
  rw [← hsame.destination_eq] at hget hcontent
  rw [write, makeDirectoryAll_of_there hfs' hdir]
  exact writeFiles_of_content hfs' (hsame.reachable hreach) (hsame.directory_of hget)
    (fun _ => isName_of_mem_files (r := r)) hcontent

theorem noSource_of_oneOf {r : Report} {dir loc : Location} (h : OneOf r.files dir loc) :
    Scan.NoSource loc := by
  obtain ⟨file, hfile, rfl⟩ := h
  have hnames : ∀ name ∈ fileNames, Scan.isSource name = false := by decide
  exact ⟨file.1, List.getLast?_concat, hnames _ (List.mem_map_of_mem hfile)⟩

theorem not_oneOf_concat {r : Report} {dir loc : Location} {name : String} (hname : name ∉ fileNames) :
    ¬ OneOf r.files dir (loc ++ [name]) := by
  rintro ⟨file, hfile, heq⟩
  obtain ⟨-, hlast⟩ := List.append_inj' heq rfl
  rw [List.singleton_inj.1 hlast] at hname
  exact hname (List.mem_map_of_mem hfile)

theorem isLinkFreeTree_of_sameBut {r : Report} {fs fs' : FileSystem} (hfs : fs.IsLinkFreeTree)
    {dir : Location} (hdir : fs.get? dir = some .directory)
    (h : SameBut (OneOf r.files dir) fs fs') : fs'.IsLinkFreeTree := by
  refine ⟨?_, hfs.linkFree.of_sameBut h⟩
  refine isTree_of_added hfs.toIsTree (fun loc => h.directory_of) fun entry hentry => ?_
  refine (h.newEntries entry hentry).imp_right ?_
  rintro ⟨⟨file, hfile, heq⟩, -⟩
  exact ⟨dir, file.1, heq, hdir, isName_of_mem_files hfile⟩

end Report

namespace Terminal

theorem aggregate_eq_of_sameBut {changed : Location → Prop} {fs fs' : FileSystem}
    (hfs : fs.IsLinkFreeTree) (hfs' : fs'.IsLinkFreeTree) (h : SameBut changed fs fs')
    (hchanged : ∀ loc, changed loc → Scan.NoSource loc) (a : ExtractArguments) (s : Settings) :
    a.aggregate fs' s = a.aggregate fs s := by
  have hscanned : a.scanned fs' s = a.scanned fs s :=
    Scan.files_eq_of_sameBut hfs hfs' h hchanged _ _ _ _
  rw [ExtractArguments.aggregate, ExtractArguments.aggregate, hscanned]
  refine Collect.extractFiles_congr fun path hpath => ?_
  obtain ⟨root, -, hmem⟩ := List.mem_flatMap.1 (StringSet.mem_ofList.1 (StringSet.mem_toList.1 hpath))
  obtain ⟨hfinds, -, hsource⟩ := Scan.mem_filesOf_iff.1 hmem
  obtain ⟨e, hstat⟩ := Scan.stat_of_finds hfs hfinds
  refine readText_congr ?_
  rw [hstat, Scan.stat_eq_of_isSource hfs h hchanged hstat hsource]

/-- A second run does what the first one did. -/
theorem extract_again (fs : FileSystem) (hfs : fs.IsLinkFreeTree) (a : ExtractArguments)
    (loaded : Settings.Loaded) (hsettings : Settings.load fs a.root = .ok loaded)
    (hdir : a.reportDir loaded.settings = "" ∨
      fs.isDirectory (a.reportDir loaded.settings) = true)
    (hexisting : ∀ path ∈ a.existingPath? loaded.settings, ∀ name ∈ Report.fileNames,
      fs.resolve path ≠ fs.resolve (Path.join (a.reportDir loaded.settings) name))
    (status : ExitStatus) (w : Effects)
    (h : runOn fs (some (.extract a)) = (.ok status, w)) :
    ∃ w', runOn w.files (some (.extract a)) = (.ok status, w') ∧
      w'.stdout = w.stdout ∧ w'.files = w.files := by
  obtain ⟨loaded', existing, written, hload, hleave, hstatus, hstdout⟩ := of_runOn_extract_ok h
  obtain ⟨hsettings', hkeys⟩ := load_eq_ok_iff.1 hload
  obtain rfl : loaded = loaded' := Except.ok.inj (hsettings.symm.trans hsettings')
  have hwrite := leave_eq_ok_iff.1 hleave
  split at hwrite
  next hdry =>
    rw [hwrite.1]
    exact ⟨w, h, rfl, hwrite.1⟩
  next hdry =>
    obtain ⟨⟨hreach, hget⟩, hsame, -, -⟩ := Report.of_write_eq_ok hfs.linkFree hdir hwrite
    have hfs' := Report.isLinkFreeTree_of_sameBut hfs hget hsame
    have hsettings' : Settings.load w.files a.root = .ok loaded := by
      rw [← hsettings]
      exact Settings.load_eq_of_sameBut hfs.linkFree hsame (fun _ =>
        ⟨Report.not_oneOf_concat (by decide), Report.not_oneOf_concat (by decide)⟩) a.root
    have hkeys' : (a.existingPath? loaded.settings).mapM (Catalogue.load w.files) = .ok existing := by
      refine Catalogue.mapM_load_of_sameBut hfs.linkFree hsame hkeys ?_
      rintro path hpath hexists ⟨file, hfile, heq⟩
      refine hexisting path hpath file.1 (List.mem_map_of_mem hfile) ?_
      rw [resolve_of_pathExists hfs.linkFree hexists, heq]
      exact (resolve_join_name hfs.linkFree (Report.isName_of_mem_files hfile) hreach hget).symm
    have haggregate := aggregate_eq_of_sameBut hfs hfs' hsame
      (fun _ => Report.noSource_of_oneOf) a loaded.settings
    have hreport : a.report w.files loaded.settings existing =
        a.report fs loaded.settings existing := by
      rw [ExtractArguments.report, ExtractArguments.report, haggregate]
    have hresult : a.result w.files loaded.settings existing written =
        a.result fs loaded.settings existing written := by
      rw [ExtractArguments.result, ExtractArguments.result, ExtractArguments.summary,
        ExtractArguments.summary, haggregate]
    have hleave' : a.leave w.files loaded.settings existing = (w.files, .ok written) := by
      rw [leave_eq_ok_iff, if_neg hdry, hreport]
      exact Report.write_again hfs.linkFree hdir hwrite
    obtain ⟨stderr, events, hrun⟩ :=
      runOn_extract_of_leave_ok (load_eq_ok_iff.2 ⟨hsettings', hkeys'⟩) hleave'
    rw [hresult, ← hstatus, ← hstdout] at hrun
    exact ⟨_, hrun, rfl, rfl⟩

/-- A project whose report goes to where its sources are, in place of an older one. -/
def nestedProject : FileSystem where
  entries := [(["w"], .directory), (["w", "src"], .directory),
    (["w", "src", "a.ts"], .file "t('k');".toUTF8),
    (["w", "src", Report.keysFile], .file "[]".toUTF8), (["w", "known.json"], .file "[]".toUTF8)]
  workingDirectory := ["w"]

def nestedArguments : ExtractArguments :=
  { outputDir := some "src/../src/", existingKeys := some "known.json" }

def nestedLeft : Effects := (runOn nestedProject (some (.extract nestedArguments))).2

theorem extract_again_nestedProject :
    runOn nestedProject (some (.extract nestedArguments)) = (.ok .success, nestedLeft) ∧
      ∃ w', runOn nestedLeft.files (some (.extract nestedArguments)) = (.ok .success, w') ∧
        w'.stdout = nestedLeft.stdout ∧ w'.files = nestedLeft.files := by
  have hrun : runOn nestedProject (some (.extract nestedArguments)) = (.ok .success, nestedLeft) :=
    Prod.ext (by decide +kernel) (by rw [nestedLeft])
  refine ⟨hrun, extract_again nestedProject ⟨by decide, linkFree_of_entries (by decide)⟩
    nestedArguments ⟨{}, none⟩ (by decide +kernel) (.inr (by decide +kernel)) ?_ .success
    nestedLeft hrun⟩
  decide +kernel

end Terminal

end MessageKeys
