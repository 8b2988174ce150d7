import Mathlib.Data.List.Nodup
import Mathlib.Data.List.TakeWhile
import MessageKeys.Terminal.Arguments

namespace MessageKeys.Terminal

inductive AnyOption where
  | valued (option : ValueOption)
  | flag (option : FlagOption)
deriving Repr, DecidableEq

namespace AnyOption

def all : List AnyOption := ValueOption.all.map valued ++ FlagOption.all.map flag

def usage : AnyOption → String
  | valued o => o.usage
  | flag f => f.usage

def isIn (a : ExtractArguments) : AnyOption → Bool
  | valued o => (o.get? a).isSome
  | flag f => f.isSet a

end AnyOption

inductive Setting where
  | value (option : ValueOption) (value : String)
  | flag (option : FlagOption)
deriving Repr, DecidableEq

namespace Setting

def option : Setting → AnyOption
  | value o _ => .valued o
  | flag f => .flag f

def put (a : ExtractArguments) : Setting → ExtractArguments
  | value o v => o.set a v
  | flag f => f.set a

/-- What is said taken in, unless the option has been read already. -/
def take (a : ExtractArguments) : Setting → Except Refusal ExtractArguments
  | value o v => a.assign o v
  | flag f => a.raise f

end Setting

def ExtractArguments.settings (a : ExtractArguments) : List Setting :=
  ValueOption.all.filterMap (fun o => (o.get? a).map (.value o)) ++
    (FlagOption.all.filter (·.isSet a)).map .flag

/-- An option as it stands on a command line. The value is not empty; in a word of its own it does
not begin with a hyphen. -/
inductive Written where
  /-- `--name=value` -/
  | joined (option : ValueOption) (value : String) (nonempty : value ≠ "")
  /-- `--name value` -/
  | apart (option : ValueOption) (value : String) (nonempty : value ≠ "")
    (plain : value.toList.head? ≠ some '-')
  /-- `--name` -/
  | long (option : FlagOption)
  /-- `-v` -/
  | letter

namespace Written

def words : Written → List String
  | joined o v _ => ["--" ++ o.name ++ "=" ++ v]
  | apart o v _ _ => ["--" ++ o.name, v]
  | long f => ["--" ++ f.name]
  | letter => ["-v"]

def setting : Written → Setting
  | joined o v _ | apart o v _ _ => .value o v
  | long f => .flag f
  | letter => .flag .verbose

end Written

theorem ValueOption.notMem_name (o : ValueOption) : '=' ∉ o.name.toList := by
  cases o <;> decide

theorem FlagOption.notMem_name (f : FlagOption) : '=' ∉ f.name.toList := by
  cases f <;> decide

namespace Word

variable {cs : List Char}

theorem splitValue_of_notMem (h : '=' ∉ cs) : splitValue cs = (String.ofList cs, none) := by
  have hne : ∀ c ∈ cs, (c != '=') = true := fun c hc => bne_iff_ne.2 fun he => h (he ▸ hc)
  unfold splitValue
  rw [List.dropWhile_eq_nil_iff.2 hne]

theorem splitValue_append (h : '=' ∉ cs) (value : List Char) :
    splitValue (cs ++ '=' :: value) = (String.ofList cs, some (String.ofList value)) := by
  have hne : ∀ c ∈ cs, (c != '=') = true := fun c hc => bne_iff_ne.2 fun he => h (he ▸ hc)
  have hend : ('=' != '=') = false := rfl
  unfold splitValue
  rw [List.dropWhile_append_of_pos hne, List.takeWhile_append_of_pos hne, List.dropWhile_cons, hend,
    List.takeWhile_cons, hend]
  simp

theorem ofString_long {s : String} (hs : s.toList = '-' :: '-' :: cs) (hcs : cs ≠ []) :
    ofString s = .long (splitValue cs).1 (splitValue cs).2 := by
  unfold ofString
  rw [hs]
  cases cs with
  | nil => exact absurd rfl hcs
  | cons c cs => rfl

theorem ofString_joined {name : String} (h : '=' ∉ name.toList) (v : String) :
    ofString ("--" ++ name ++ "=" ++ v) = .long name (some v) := by
  have hs : ("--" ++ name ++ "=" ++ v).toList = '-' :: '-' :: (name.toList ++ '=' :: v.toList) := by
    simp
  rw [ofString_long hs (by simp), splitValue_append h, String.ofList_toList, String.ofList_toList]

theorem ofString_name {name : String} (hne : name ≠ "") (h : '=' ∉ name.toList) :
    ofString ("--" ++ name) = .long name none := by
  have hs : ("--" ++ name).toList = '-' :: '-' :: name.toList := by
    simp
  rw [ofString_long hs (by simpa using hne), splitValue_of_notMem h, String.ofList_toList]

theorem ofString_plain {v : String} (h : v.toList.head? ≠ some '-') : ofString v = .plain v := by
  unfold ofString
  split
  · simp_all
  · simp_all
  · simp_all
  · rfl

end Word

namespace ExtractArguments

section Words

variable (a : ExtractArguments) (pending : Option Pending)

theorem readLong_value (o : ValueOption) (v : String) :
    a.readLong pending o.name (some v) =
      (a.settle pending >>= fun b => (b.assign o v).map fun c => (c, none)) := by
  cases o <;> rfl

theorem readLong_name (o : ValueOption) :
    a.readLong pending o.name none = (a.settle pending).map fun b => (b, some ⟨o, none⟩) := by
  cases o <;> rfl

theorem readLong_flag (f : FlagOption) :
    a.readLong pending f.name none =
      (a.settle pending >>= fun b => (b.raise f).map fun c => (c, none)) := by
  cases f <;> rfl

theorem readLetters_verbose :
    a.readLetters pending ['v'] =
      (a.settle pending >>= fun b => (b.raise .verbose).map fun c => (c, none)) := rfl

variable {w : String} (ws : List String)

theorem readWords_long {name : String} {value : Option String}
    (h : Word.ofString w = .long name value) :
    a.readWords pending (w :: ws) =
      (a.readLong pending name value >>= fun s => s.1.readWords s.2 ws) := by
  rw [readWords.eq_def]
  simp only [h]

theorem readWords_short {letters : List Char} (h : Word.ofString w = .short letters) :
    a.readWords pending (w :: ws) =
      (a.readLetters pending letters >>= fun s => s.1.readWords s.2 ws) := by
  rw [readWords.eq_def]
  simp only [h]

theorem readWords_awaited {text : String} (h : Word.ofString w = .plain text) (o : ValueOption) :
    a.readWords (some ⟨o, none⟩) (w :: ws) = a.readWords (some ⟨o, some text⟩) ws := by
  rw [readWords.eq_def]
  simp only [h]

end Words

end ExtractArguments

namespace Written

open ExtractArguments (Pending)

/-- What has been read after an option. A value in a word of its own is not taken in yet. -/
def after (a : ExtractArguments) : Written → Except Refusal (ExtractArguments × Option Pending)
  | joined o v _ => (a.assign o v).map fun b => (b, none)
  | apart o v _ _ => .ok (a, some ⟨o, some v⟩)
  | long f => (a.raise f).map fun b => (b, none)
  | letter => (a.raise .verbose).map fun b => (b, none)

variable (w : Written) (a : ExtractArguments)

theorem after_settle : (w.after a >>= fun s => s.1.settle s.2) = w.setting.take a := by
  have hread (x : Except Refusal ExtractArguments) :
      ((x.map fun b => (b, none)) >>= fun s => s.1.settle s.2) = x := by
    cases x <;> rfl
  cases w with
  | joined o v hv => exact hread (a.assign o v)
  | apart o v hv hplain => rfl
  | long f => exact hread (a.raise f)
  | letter => exact hread (a.raise .verbose)

open ExtractArguments in
theorem readWords_words (pending : Option Pending) (rest : List String) :
    a.readWords pending (w.words ++ rest) =
      ((a.settle pending >>= fun b => w.after b) >>= fun s => s.1.readWords s.2 rest) := by
  cases w with
  | joined o v hv =>
    rw [words, List.singleton_append, readWords_long _ _ _ (Word.ofString_joined o.notMem_name v),
      readLong_value]
    cases a.settle pending <;> rfl
  | apart o v hv hplain =>
    have hname : o.name ≠ "" := by
      cases o <;> decide
    rw [words, List.cons_append, List.singleton_append,
      readWords_long _ _ _ (Word.ofString_name hname o.notMem_name), readLong_name]
    cases a.settle pending with
    | error e => rfl
    | ok b => exact readWords_awaited b rest (Word.ofString_plain hplain) o
  | long f =>
    have hname : f.name ≠ "" := by
      cases f <;> decide
    rw [words, List.singleton_append,
      readWords_long _ _ _ (Word.ofString_name hname f.notMem_name), readLong_flag]
    cases a.settle pending <;> rfl
  | letter =>
    have hword : Word.ofString "-v" = .short ['v'] := by decide
    rw [words, List.singleton_append, readWords_short _ _ _ hword, readLetters_verbose]
    cases a.settle pending <;> rfl

theorem readWords_flatMap (ws : List Written) (a : ExtractArguments) (pending : Option Pending) :
    a.readWords pending (ws.flatMap words) =
      (a.settle pending >>= fun b => (ws.map setting).foldlM Setting.take b) := by
  induction ws generalizing a pending with
  | nil =>
    change a.settle pending = (a.settle pending >>= fun b => .ok b)
    cases a.settle pending <;> rfl
  | cons w ws ih =>
    rw [List.flatMap_cons, readWords_words]
    cases a.settle pending with
    | error e => rfl
    | ok b =>
      change (w.after b >>= fun s => s.1.readWords s.2 (ws.flatMap words)) =
        (w.setting.take b >>= fun c => (ws.map setting).foldlM Setting.take c)
      rw [← after_settle]
      cases w.after b with
      | error e => rfl
      | ok s => exact ih s.1 s.2

end Written

theorem ExtractArguments.parse_written (ws : List Written) :
    parse (ws.flatMap Written.words) = (ws.map Written.setting).foldlM Setting.take {} :=
  Written.readWords_flatMap ws {} none

namespace Setting

def IsFilled : Setting → Prop
  | value _ v => v ≠ ""
  | flag _ => True

section Take

variable {a : ExtractArguments} {s t : Setting}

theorem take_of_isIn (h : s.option.isIn a = true) :
    s.take a = .error (.repeated s.option.usage) := by
  cases s with
  | value o v => exact if_pos h
  | flag f => exact if_pos h

theorem take_of_not_isIn (h : s.option.isIn a = false) (hs : s.IsFilled) :
    s.take a = .ok (s.put a) := by
  cases s with
  | value o v =>
    have hv : v.isEmpty = false := by simpa [IsFilled] using hs
    have hget : (o.get? a).isSome = false := h
    simp [take, put, ExtractArguments.assign, hget, hv]
  | flag f =>
    have hset : f.isSet a = false := h
    simp [take, put, ExtractArguments.raise, hset]

theorem isIn_put {o : AnyOption} : o.isIn (s.put a) = true ↔ o = s.option ∨ o.isIn a = true := by
  rcases s with ⟨_ | _ | _, v⟩ | _ | _ <;> rcases o with (_ | _ | _) | _ | _ <;>
    simp [AnyOption.isIn, put, option, ValueOption.set, ValueOption.get?, FlagOption.set,
      FlagOption.isSet]

theorem put_comm (h : s.option ≠ t.option) : t.put (s.put a) = s.put (t.put a) := by
  rcases s with ⟨_ | _ | _, v⟩ | _ | _ <;> rcases t with ⟨_ | _ | _, v'⟩ | _ | _ <;>
    simp_all [option, put, ValueOption.set, FlagOption.set]

end Take

variable {ss : List Setting}

theorem isIn_foldl_put {o : AnyOption} {a : ExtractArguments} :
    o.isIn (ss.foldl put a) = true ↔ o ∈ ss.map option ∨ o.isIn a = true := by
  induction ss generalizing a with
  | nil => simp
  | cons s ss ih =>
    rw [List.foldl_cons, ih, isIn_put, List.map_cons, List.mem_cons]
    tauto

/-- Options that differ from each other and from those read before are all taken in. -/
theorem foldlM_take (hfilled : ∀ s ∈ ss, s.IsFilled) (hnodup : (ss.map option).Nodup)
    {a : ExtractArguments} (hnew : ∀ s ∈ ss, s.option.isIn a = false) :
    ss.foldlM take a = .ok (ss.foldl put a) := by
  induction ss generalizing a with
  | nil => rfl
  | cons s ss ih =>
    rw [List.forall_mem_cons] at hfilled hnew
    rw [List.map_cons, List.nodup_cons] at hnodup
    have hrest : ∀ t ∈ ss, t.option.isIn (s.put a) = false := by
      intro t ht
      have hne : t.option ≠ s.option := fun he => hnodup.1 (he ▸ List.mem_map_of_mem ht)
      rw [Bool.eq_false_iff, ne_eq, isIn_put, not_or]
      exact ⟨hne, Bool.eq_false_iff.1 (hnew.2 t ht)⟩
    rw [List.foldlM_cons, take_of_not_isIn hnew.1 hfilled.1, List.foldl_cons]
    exact ih hfilled.2 hnodup.2 hrest

theorem foldlM_take_of_nodup (hfilled : ∀ s ∈ ss, s.IsFilled) (hnodup : (ss.map option).Nodup) :
    ss.foldlM take {} = .ok (ss.foldl put {}) := by
  apply foldlM_take hfilled hnodup
  intro s _
  rcases s with ⟨_ | _ | _, v⟩ | _ | _ <;> rfl

theorem foldlM_take_repeated {before after : List Setting} {s : Setting}
    (hfilled : ∀ t ∈ before, t.IsFilled) (hnodup : (before.map option).Nodup)
    (hs : s.option ∈ before.map option) :
    (before ++ s :: after).foldlM take {} = .error (.repeated s.option.usage) := by
  have hin : s.option.isIn (before.foldl put {}) = true := isIn_foldl_put.2 (.inl hs)
  rw [List.foldlM_append, foldlM_take_of_nodup hfilled hnodup]
  change (s :: after).foldlM take (before.foldl put {}) = _
  rw [List.foldlM_cons, take_of_isIn hin]
  rfl

/-- An option that is put once more among options that differ is refused, and where the second time
stands does not matter. -/
theorem foldlM_take_again {before after : List Setting} {s : Setting}
    (hfilled : ∀ t ∈ before ++ s :: after, t.IsFilled)
    (hnodup : ((before ++ after).map option).Nodup) (hs : s.option ∈ (before ++ after).map option) :
    (before ++ s :: after).foldlM take {} = .error (.repeated s.option.usage) := by
  rw [List.map_append, List.mem_append] at hs
  rw [List.map_append] at hnodup
  rcases hs with hs | hs
  · apply foldlM_take_repeated _ (List.nodup_append.1 hnodup).1 hs
    intro t ht
    exact hfilled t (List.mem_append_left _ ht)
  · obtain ⟨t, ht, hoption⟩ := List.mem_map.1 hs
    obtain ⟨between, rest, rfl⟩ := List.append_of_mem ht
    -- The one that stands later is refused; up to it the options differ.
    have hmoved : ((before ++ s :: between).map option).Nodup := by
      have hperm := (List.perm_append_singleton t.option (between.map option)).append_left
        (before.map option)
      rw [List.map_append, List.map_cons, ← hoption, ← hperm.nodup_iff]
      refine List.Nodup.sublist ?_ hnodup
      rw [List.map_append, List.map_cons]
      exact (List.Sublist.refl _).append ((List.Sublist.refl _).append (by simp))
    have hrepeated : t.option ∈ (before ++ s :: between).map option := by
      rw [hoption]
      exact List.mem_map_of_mem (by simp)
    have hsplit : before ++ s :: (between ++ t :: rest) =
        (before ++ s :: between) ++ t :: rest := by
      simp
    rw [hsplit] at hfilled ⊢
    rw [← hoption]
    apply foldlM_take_repeated _ hmoved hrepeated
    intro u hu
    exact hfilled u (List.mem_append_left _ hu)

end Setting

namespace ExtractArguments

theorem foldl_put_settings (a : ExtractArguments) : a.settings.foldl Setting.put {} = a := by
  rcases a with ⟨_ | _, _ | _, _ | _, _ | _, _ | _⟩ <;> rfl

theorem settings_map_option (a : ExtractArguments) :
    a.settings.map Setting.option = AnyOption.all.filter (·.isIn a) := by
  rcases a with ⟨_ | _, _ | _, _ | _, _ | _, _ | _⟩ <;> rfl

theorem nodup_settings (a : ExtractArguments) : (a.settings.map Setting.option).Nodup := by
  rw [settings_map_option]
  apply List.Nodup.filter
  decide

end ExtractArguments

theorem Written.isFilled_setting (w : Written) : w.setting.IsFilled := by
  cases w with
  | joined o v hv => exact hv
  | apart o v hv hplain => exact hv
  | long f => trivial
  | letter => trivial

theorem parseArguments_extract (ws : List String) :
    parseArguments ("extract" :: ws) =
      (inScope .extract (ExtractArguments.parse ws)).map fun a => some (.extract a) := by
  rfl

/-- Options that are written in any order, in any of their spellings, are read as the arguments that
they are written for; and to write one of them again anywhere is refused. -/
theorem parseArguments_written (a : ExtractArguments) (ws : List Written)
    (h : (ws.map Written.setting).Perm a.settings) :
    parseArguments ("extract" :: ws.flatMap Written.words) = .ok (some (.extract a)) ∧
      ∀ before after again, ws = before ++ after →
        again.setting.option ∈ ws.map (·.setting.option) →
        parseArguments ("extract" :: (before ++ again :: after).flatMap Written.words) =
          .error ⟨.extract, .repeated again.setting.option.usage⟩ := by
  have hfilled (vs : List Written) : ∀ s ∈ vs.map Written.setting, s.IsFilled := by
    intro s hs
    obtain ⟨w, -, rfl⟩ := List.mem_map.1 hs
    exact w.isFilled_setting
  have hnodup : ((ws.map Written.setting).map Setting.option).Nodup :=
    (h.map Setting.option).nodup_iff.2 a.nodup_settings
  constructor
  · have hcomm : ∀ s ∈ ws.map Written.setting, ∀ t ∈ ws.map Written.setting, ∀ b,
        t.put (s.put b) = s.put (t.put b) := by
      intro s hs t ht b
      by_cases hoption : s.option = t.option
      · rw [List.inj_on_of_nodup_map hnodup hs ht hoption]
      · exact Setting.put_comm hoption
    have hput : (ws.map Written.setting).foldl Setting.put {} = a := by
      rw [h.foldl_eq' hcomm, a.foldl_put_settings]
    rw [parseArguments_extract, ExtractArguments.parse_written,
      Setting.foldlM_take_of_nodup (hfilled ws) hnodup, hput]
    rfl
  · intro before after again hws hagain
    rw [hws, List.map_append] at hnodup
    rw [hws, ← Function.comp_def, ← List.map_map, List.map_append] at hagain
    have hall := hfilled (before ++ again :: after)
    rw [List.map_append, List.map_cons] at hall
    rw [parseArguments_extract, ExtractArguments.parse_written, List.map_append, List.map_cons,
      Setting.foldlM_take_again hall hnodup hagain]
    rfl

/-- Values that look like options, names of commands or other values. -/
theorem parseArguments_written_lookalikes :
    parseArguments ["extract", "--existing-keys=--dry-run=x", "-v", "--output-dir", "init",
        "--source-root", "a=b c"] =
        .ok (some (.extract ⟨some "a=b c", some "init", some "--dry-run=x", false, true⟩)) ∧
      parseArguments ["extract", "--existing-keys=--dry-run=x", "-v", "--output-dir", "init",
        "--verbose", "--source-root", "a=b c"] =
        .error ⟨.extract, .repeated "--verbose"⟩ := by
  let before : List Written := [.joined .existingKeys "--dry-run=x" (by decide), .letter,
    .apart .outputDir "init" (by decide) (by decide)]
  let after : List Written := [.apart .sourceRoot "a=b c" (by decide) (by decide)]
  have hwritten := parseArguments_written
    ⟨some "a=b c", some "init", some "--dry-run=x", false, true⟩ (before ++ after) (by decide)
  exact ⟨hwritten.1, hwritten.2 before after (.long .verbose) rfl (by decide)⟩

end MessageKeys.Terminal
