import MessageKeys.Project.Settings
import MessageKeys.Proofs.JsonText

namespace MessageKeys.Settings

open Json (Value Kept Limits Layout)

def written (s : Settings) : List (Field × Value) :=
  Field.all.filterMap fun f => (s.field? f).map (f, ·)

theorem toJson_eq (s : Settings) :
    s.toJson = .object (s.written.map fun field => (field.1.name, field.2)) := by
  rw [toJson, written, List.map_filterMap]
  simp only [Option.map_map]
  rfl

theorem nodup_written (s : Settings) : (s.written.map (·.1)).Nodup := by
  have hall : (s.written.map (·.1)).Sublist Field.all := by
    rw [written]
    generalize Field.all = fields
    induction fields with
    | nil => exact List.Sublist.refl _
    | cons f fields ih =>
      rw [List.filterMap_cons]
      cases s.field? f with
      | none => exact ih.cons f
      | some v => exact ih.cons_cons f
  exact hall.nodup (by decide)

theorem stringsOf?_map (ss : List String) : stringsOf? (ss.map Value.string) = some ss := by
  induction ss with
  | nil => rfl
  | cons s ss ih => rw [List.map_cons, stringsOf?, ih, Option.map_some]

theorem field?_of_mem_written {s : Settings} {field : Field × Value} (h : field ∈ s.written) :
    s.field? field.1 = some field.2 := by
  obtain ⟨f, -, h⟩ := List.mem_filterMap.1 h
  obtain ⟨v, hv, rfl⟩ := Option.map_eq_some_iff.1 h
  exact hv

theorem mem_written_of_field? {s : Settings} {f : Field} {v : Value} (h : s.field? f = some v) :
    (f, v) ∈ s.written := by
  have hall : f ∈ Field.all := by cases f <;> decide
  exact List.mem_filterMap.2 ⟨f, hall, by rw [h, Option.map_some]⟩

theorem kept_of_mem_written {s : Settings} {field : Field × Value} (h : field ∈ s.written) :
    Kept (Limits.kept.depth - 1) field.2 := by
  have hv := field?_of_mem_written h
  obtain ⟨f, v⟩ := field
  cases f with
  | includes =>
    cases hv
    exact Json.kept_strings _ _
  | ignores =>
    cases hv
    exact Json.kept_strings _ _
  | ignoreTestFiles =>
    cases hv
    exact .bool _
  | sourceRoot =>
    cases hv
    exact .string _
  | outputDir =>
    cases hv
    exact .string _
  | existingKeys =>
    obtain ⟨path, -, rfl⟩ := Option.map_eq_some_iff.1 hv
    exact .string path

def withFields (s : Settings) (fields : List Field) (other : Settings) : Settings where
  includes := if .includes ∈ fields then other.includes else s.includes
  ignores := if .ignores ∈ fields then other.ignores else s.ignores
  ignoreTestFiles := if .ignoreTestFiles ∈ fields then other.ignoreTestFiles else s.ignoreTestFiles
  sourceRoot := if .sourceRoot ∈ fields then other.sourceRoot else s.sourceRoot
  outputDir := if .outputDir ∈ fields then other.outputDir else s.outputDir
  existingKeys := if .existingKeys ∈ fields then other.existingKeys else s.existingKeys

theorem field?_withFields (s : Settings) (fields : List Field) (other : Settings) (f : Field) :
    (s.withFields fields other).field? f =
      if f ∈ fields then other.field? f else s.field? f := by
  cases f <;> simp only [field?, withFields] <;> split <;> rfl

theorem strings_injective {ss ts : List String} (h : Value.strings ss = Value.strings ts) :
    ss = ts := by
  have hvalues := congrArg stringsOf? (Value.array.inj h)
  rwa [stringsOf?_map, stringsOf?_map, Option.some.injEq] at hvalues

theorem ext_field? {s t : Settings} (h : ∀ f, s.field? f = t.field? f) : s = t := by
  have hincludes := strings_injective (Option.some.inj (h .includes))
  have hignores := strings_injective (Option.some.inj (h .ignores))
  have htests := Value.bool.inj (Option.some.inj (h .ignoreTestFiles))
  have hroot := Value.string.inj (Option.some.inj (h .sourceRoot))
  have hdir := Value.string.inj (Option.some.inj (h .outputDir))
  have hkeys := Option.map_injective (fun _ _ => Value.string.inj) (h .existingKeys)
  obtain ⟨includes, ignores, ignoreTestFiles, sourceRoot, outputDir, existingKeys⟩ := s
  simp only at hincludes hignores htests hroot hdir hkeys
  rw [hincludes, hignores, htests, hroot, hdir, hkeys]

theorem setField?_of_field? {s : Settings} {f : Field} {v : Value} (h : s.field? f = some v)
    (t : Settings) : t.setField? f v = some (t.withFields [f] s) := by
  cases f with
  | existingKeys =>
    obtain ⟨path, hpath, rfl⟩ := Option.map_eq_some_iff.1 h
    simp [setField?, withFields, hpath]
  | _ =>
    cases h
    simp [setField?, withFields, Value.strings, stringsOf?_map]

theorem setFields?_of_field? {s : Settings} {fields : List (Field × Value)}
    (h : ∀ field ∈ fields, s.field? field.1 = some field.2) (t : Settings) :
    t.setFields? fields = some (t.withFields (fields.map (·.1)) s) := by
  induction fields generalizing t with
  | nil =>
    refine congrArg some (ext_field? fun f => ?_)
    simp [field?_withFields]
  | cons field fields ih =>
    have hfield := setField?_of_field? (h field List.mem_cons_self) t
    have hfields := ih (fun field hf => h field (List.mem_cons_of_mem _ hf))
      (t.withFields [field.1] s)
    rw [setFields?, hfield, Option.bind_some, hfields]
    refine congrArg some (ext_field? fun f => ?_)
    simp only [field?_withFields, List.map_cons, List.mem_cons, List.not_mem_nil, or_false]
    split <;> split <;> simp_all

/-- The fields that are left make up the settings; one that is not there has its default. -/
theorem withFields_default {s : Settings} {fields removed : List Field}
    (h : ∀ f, f ∈ fields ↔ f ∉ removed ∧ (s.field? f).isSome) :
    withFields {} fields s = s.withFields removed {} := by
  refine ext_field? fun f => ?_
  rw [field?_withFields, field?_withFields]
  by_cases hr : f ∈ removed
  · have hf : f ∉ fields := fun hf => ((h f).1 hf).1 hr
    rw [if_neg hf, if_pos hr]
  · rw [if_neg hr]
    split
    · rfl
    next hf =>
      have hnone : s.field? f = none := by
        rw [h f] at hf
        simpa [hr] using hf
      -- Only the path of the known keys can be absent, and it is absent by default.
      rw [hnone]
      cases f with
      | existingKeys => rfl
      | _ => cases hnone

theorem ofMembers?_of_perm {s : Settings} {removed : List Field}
    {members : List (String × Option (Field × Value))}
    (h : (members.filterMap (·.2)).Perm (s.written.filter fun field => field.1 ∉ removed)) :
    ofMembers? members = some (s.withFields removed {}) := by
  have hnodup : ((members.filterMap (·.2)).map (·.1)).Nodup := by
    rw [(h.map _).nodup_iff]
    exact (List.filter_sublist.map _).nodup s.nodup_written
  have hfields : ∀ field ∈ members.filterMap (·.2), s.field? field.1 = some field.2 := by
    intro field hfield
    exact field?_of_mem_written (List.mem_of_mem_filter (h.mem_iff.1 hfield))
  rw [ofMembers?, if_pos hnodup, setFields?_of_field? hfields]
  refine congrArg some (withFields_default fun f => ?_)
  rw [(h.map _).mem_iff]
  simp only [List.mem_map, List.mem_filter, decide_eq_true_eq]
  constructor
  · rintro ⟨field, ⟨hw, hr⟩, rfl⟩
    exact ⟨hr, by rw [field?_of_mem_written hw]; rfl⟩
  · rintro ⟨hr, hf⟩
    obtain ⟨v, hv⟩ := Option.isSome_iff_exists.1 hf
    exact ⟨(f, v), ⟨mem_written_of_field? hv, hr⟩, rfl⟩

theorem ofName?_name (f : Field) : Field.ofName? f.name = some f := by
  cases f <;> decide

theorem ofName?_eq_none {name : String} (h : ∀ f : Field, name ≠ f.name) :
    Field.ofName? name = none := by
  rw [Field.ofName?, List.find?_eq_none]
  intro f _ hf
  exact h f (beq_iff_eq.1 hf).symm

theorem name_injective {f g : Field} (h : f.name = g.name) : f = g := by
  have hf := congrArg Field.ofName? h
  rwa [ofName?_name, ofName?_name, Option.some.injEq] at hf

/-- The field that a member gives, if it gives one. -/
def memberField? (m : String × Value) : Option (Field × Value) :=
  (Field.ofName? m.1).map (·, m.2)

/-- Every value of a member is read or passed over, as long as a field's can be kept. -/
theorem reads_memberValue {l : Layout} (hl : l.Lawful) {size indent : Nat} {m : String × Value}
    (hk : (memberField? m).isSome → Kept (Limits.kept.depth - 1) m.2)
    (hsize : (m.2.write l indent).length < size) :
    Json.Reads (readMemberValue size m.1) (memberField? m) (m.2.write l indent) := by
  cases hf : Field.ofName? m.1 with
  | none =>
    obtain ⟨w, hw⟩ := Json.exists_reads hl (.passedOver size) rfl hsize
    refine ⟨hw.begins, fun rest hrest => ?_⟩
    simp only [readMemberValue, memberField?, hf, hw.read rest hrest, Option.map_some,
      Option.map_none]
  | some f =>
    have hreads := Json.reads_value hl .kept (hk (by simp [memberField?, hf])) indent
    refine ⟨hreads.begins, fun rest hrest => ?_⟩
    simp only [readMemberValue, memberField?, hf, hreads.read rest hrest, Option.map_some]

theorem reads_members {l : Layout} (hl : l.Lawful) {size indent : Nat}
    {members : List (String × Value)}
    (hk : ∀ m ∈ members, (memberField? m).isSome → Kept (Limits.kept.depth - 1) m.2)
    (hsize : ∀ t ∈ members.map (Value.writeMember l indent), t.length < size) :
    List.Forall₂ (Json.Reads (Json.readMember true (readMemberValue size)))
      (members.map fun m => (m.1, memberField? m)) (members.map (Value.writeMember l indent)) := by
  refine List.forall₂_map_right_iff.2 (List.forall₂_map_left_iff.2 (List.forall₂_same.2 ?_))
  intro m hm
  have hmember := Value.length_le_writeMember l indent m
  have hlt := hsize _ (List.mem_map_of_mem hm)
  exact Json.reads_member hl true (reads_memberValue hl (hk m hm) (by omega))

theorem parse?_object {members : List (String × Value)} {blanks : List Char}
    (hk : ∀ m ∈ members, (memberField? m).isSome → Kept (Limits.kept.depth - 1) m.2)
    (hb : ∀ c ∈ blanks, Json.isSpace c = true) :
    parse? ((Value.object members).pretty.toList ++ blanks) =
      ofMembers? (members.map fun m => (m.1, memberField? m)) := by
  have hl := Layout.pretty_lawful
  have htext : (Value.object members).pretty.toList ++ blanks = '\x7b' ::
      (Json.listText (Layout.pretty.lineBreak 1) (Layout.pretty.lineBreak 0)
        (members.map (Value.writeMember .pretty 1)) ++ '\x7d' :: blanks) := by
    rw [Value.pretty, Value.write_object, String.toList_ofList, List.cons_append, List.append_assoc]
    rfl
  -- The text bounds how deep the values that are passed over may be nested.
  have hsize : ∀ t ∈ members.map (Value.writeMember .pretty 1),
      t.length < ((Value.object members).pretty.toList ++ blanks).length := by
    intro t ht
    have hlist := Json.length_le_listText (Layout.pretty.lineBreak 1) (Layout.pretty.lineBreak 0) ht
    rw [htext, List.length_cons, List.length_append]
    omega
  have hread := Json.readList_listText (hl.lineBreak 1) (hl.lineBreak 0) (.inr rfl)
    (reads_members hl hk hsize) blanks
  have hskip (cs : List Char) : Json.skipSpace ('\x7b' :: cs) = '\x7b' :: cs := rfl
  have hend : Json.skipSpace (blanks ++ []) = [] := Text.dropWhile_append_eq hb (by simp)
  rw [List.append_nil] at hend
  rw [htext] at hread ⊢
  simp only [parse?, hskip, hread, Option.bind_some, Json.atEnd, hend, List.isEmpty_nil, if_true]

/-- Settings are read from any object whose members for fields are some of those written. -/
theorem parse?_of_perm {s : Settings} {removed : List Field} {members : List (String × Value)}
    {blanks : List Char}
    (h : (members.filterMap memberField?).Perm (s.written.filter fun field => field.1 ∉ removed))
    (hb : ∀ c ∈ blanks, Json.isSpace c = true) :
    parse? ((Value.object members).pretty.toList ++ blanks) = some (s.withFields removed {}) := by
  have hk : ∀ m ∈ members, (memberField? m).isSome → Kept (Limits.kept.depth - 1) m.2 := by
    intro m hm hsome
    obtain ⟨f, hf, -⟩ := Option.map_eq_some_iff.1 (Option.eq_some_of_isSome hsome)
    have hmem : (f, m.2) ∈ members.filterMap memberField? :=
      List.mem_filterMap.2 ⟨m, hm, by rw [memberField?, hf, Option.map_some]⟩
    exact kept_of_mem_written (List.mem_of_mem_filter (h.mem_iff.1 hmem))
  rw [parse?_object hk hb]
  apply ofMembers?_of_perm
  rw [List.filterMap_map]
  exact h

theorem filterMap_memberField?_written (s : Settings) (removed : List Field) :
    ((s.written.map fun field => (field.1.name, field.2)).filter
      fun m => ∀ f ∈ removed, m.1 ≠ f.name).filterMap memberField? =
    s.written.filter fun field => field.1 ∉ removed := by
  have hname (field : Field × Value) :
      (∀ f ∈ removed, field.1.name ≠ f.name) ↔ field.1 ∉ removed := by
    constructor
    · intro h hr
      exact h field.1 hr rfl
    · intro hr f hf heq
      rw [name_injective heq] at hr
      exact hr hf
  have hfield : (memberField? ∘ fun field : Field × Value => (field.1.name, field.2)) = some := by
    funext field
    simp [memberField?, ofName?_name]
  rw [List.filter_map, List.filterMap_map, hfield, List.filterMap_some]
  simp only [Function.comp_def, hname]

theorem withFields_nil (s other : Settings) : s.withFields [] other = s :=
  ext_field? fun f => by rw [field?_withFields, if_neg List.not_mem_nil]

theorem parse?_written (s : Settings) {blanks : List Char}
    (hb : ∀ c ∈ blanks, Json.isSpace c = true) :
    parse? (s.toJson.pretty.toList ++ blanks) = some s := by
  have hfields := s.filterMap_memberField?_written []
  rw [List.filter_eq_self.2 (by simp)] at hfields
  rw [toJson_eq, parse?_of_perm (List.Perm.of_eq hfields) hb, withFields_nil]

theorem parse?_pretty (s : Settings) : parse? (s.toJson.pretty ++ "\n").toList = some s := by
  rw [String.toList_append]
  exact s.parse?_written (by simp [Json.isSpace])

/-- A settings file may be edited: some fields' members removed, the others put in any order, and
any members that are no field's added. It is read as the settings with the defaults for the fields
that were removed. Where nothing is changed, the settings are read back. -/
theorem parse?_edited (s : Settings) (removed : List Field)
    {original inserted members : List (String × Value)} (ho : s.toJson = .object original)
    (hi : ∀ m ∈ inserted, ∀ f : Field, m.1 ≠ f.name)
    (hm : members.Perm (original.filter (fun m => ∀ f ∈ removed, m.1 ≠ f.name) ++ inserted)) :
    parse? (Value.object members).pretty.toList = some (s.withFields removed {}) ∧
      parse? s.toJson.pretty.toList = some s := by
  have hinserted : inserted.filterMap memberField? = [] := by
    refine List.filterMap_eq_nil_iff.2 fun m hm => ?_
    rw [memberField?, ofName?_eq_none (hi m hm), Option.map_none]
  have horiginal : original = s.written.map fun field => (field.1.name, field.2) := by
    rw [toJson_eq] at ho
    exact (Value.object.inj ho).symm
  have hfields := hm.filterMap memberField?
  rw [List.filterMap_append, hinserted, List.append_nil, horiginal,
    filterMap_memberField?_written] at hfields
  have hblanks : ∀ c ∈ ([] : List Char), Json.isSpace c = true := by simp
  have hread := parse?_of_perm hfields hblanks
  have hback := s.parse?_written hblanks
  rw [List.append_nil] at hread hback
  exact ⟨hread, hback⟩

/-- Settings of which no field has its default value. -/
def changed : Settings :=
  ⟨["src/**", "\"\n"], [], false, "web", "out", some "keys.json"⟩

/-- Members that are no field's: a float, a member given twice, and a number out of range. -/
def foreign : List (String × Value) :=
  [("plugins", .array [.object [("a", .number (.float true ⟨5, -1⟩)), ("a", .null)], .array []]),
    ("Includes", .number (.integer (-10000000000000000000000)))]

theorem parse?_edited_changed :
    parse? (Value.object (foreign ++
      [("outputDir", .string "out"), ("includes", .strings ["src/**", "\"\n"])])).pretty.toList =
        some { includes := ["src/**", "\"\n"], outputDir := "out" } ∧
    parse? changed.toJson.pretty.toList = some changed := by
  have hi : ∀ m ∈ foreign, ∀ f : Field, m.1 ≠ f.name := by
    intro m hm f
    simp only [foreign, List.mem_cons, List.not_mem_nil, or_false] at hm
    rcases hm with rfl | rfl <;> cases f <;> decide
  refine parse?_edited changed [.ignores, .ignoreTestFiles, .sourceRoot, .existingKeys] rfl hi ?_
  exact List.perm_append_comm.trans (.append_right _ (.swap _ _ _))

end MessageKeys.Settings
