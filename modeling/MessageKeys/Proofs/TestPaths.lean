import MessageKeys.Proofs.FoundFiles
import MessageKeys.Proofs.PatternSpelling

namespace MessageKeys

namespace Glob

namespace Pattern

theorem matches_chars_append_iff {text : List Char} {ts : Pattern} {cs : List Char} :
    Matches (text.map .char ++ ts) cs ↔ ∃ rest, cs = text ++ rest ∧ Matches ts rest := by
  induction text generalizing cs with
  | nil => simp
  | cons c text ih =>
    rw [List.map_cons, List.cons_append, matches_token_iff (by simp) (by simp)]
    simp only [ih, Token.accepts, beq_iff_eq]
    constructor
    · rintro ⟨_, _, rfl, rfl, rest, rfl, hrest⟩
      exact ⟨rest, rfl, hrest⟩
    · rintro ⟨rest, rfl, hrest⟩
      exact ⟨c, _, rfl, rfl, rest, rfl, hrest⟩

theorem matches_chars_iff {text cs : List Char} : Matches (text.map .char) cs ↔ cs = text := by
  rw [← List.append_nil (text.map Token.char), matches_chars_append_iff]
  constructor
  · rintro ⟨rest, rfl, hrest⟩
    cases hrest
    exact List.append_nil text
  · rintro rfl
    exact ⟨[], (List.append_nil cs).symm, .nil⟩

theorem matches_sequence_chars_iff {ending cs : List Char} :
    Matches (.anySequence :: ending.map .char) cs ↔ ending <:+ cs := by
  rw [matches_sequence_iff]
  simp only [matches_chars_iff, exists_eq_right, mem_ends_iff]
  exact exists_congr fun _ => eq_comm

theorem matches_ending_iff {ending cs : List Char} :
    Matches (.anyComponents :: .anySequence :: ending.map .char) cs ↔ ending <:+ cs := by
  simp only [matches_components_iff, matches_sequence_chars_iff]
  constructor
  · rintro (hends | ⟨rest, hafter, hends⟩ | hends)
    · exact hends
    · obtain ⟨run, rfl⟩ := mem_afterSlashes_iff.1 hafter
      exact hends.trans ((List.suffix_cons '/' rest).trans (List.suffix_append run _))
    · exact hends.trans List.nil_suffix
  · exact .inl

theorem matches_anything (cs : List Char) : Matches [.anyComponents] cs :=
  matches_components_iff.2 (.inr (.inr .nil))

theorem matches_chars_components_iff {text cs : List Char} :
    Matches (text.map .char ++ [.anyComponents]) cs ↔ text <+: cs := by
  rw [matches_chars_append_iff]
  constructor
  · rintro ⟨rest, rfl, -⟩
    exact List.prefix_append text rest
  · rintro ⟨rest, rfl⟩
    exact ⟨rest, rfl, matches_anything rest⟩

/-- Between directories and more of them a text stands at the start or after a slash. -/
theorem matches_directory_iff {text cs : List Char} :
    Matches (.anyComponents :: (text.map .char ++ [.anyComponents])) cs ↔
      text <+: cs ∨ '/' :: text <:+: cs := by
  simp only [matches_components_iff, matches_chars_components_iff]
  constructor
  · rintro (hbegins | ⟨_, hafter, rest, rfl⟩ | hnil)
    · exact .inl hbegins
    · obtain ⟨run, rfl⟩ := mem_afterSlashes_iff.1 hafter
      exact .inr ⟨run, rest, by simp⟩
    · exact .inl (hnil.trans List.nil_prefix)
  · rintro (hbegins | ⟨run, rest, rfl⟩)
    · exact .inl hbegins
    · refine .inr (.inl ⟨text ++ rest, mem_afterSlashes_iff.2 ⟨run, by simp⟩, ?_⟩)
      exact List.prefix_append text rest

end Pattern

theorem parseFrom_components (fuel position : Nat) (rest : List Char) :
    parseFrom (fuel + 1) position true ('*' :: '*' :: '/' :: rest) =
      (parseFrom fuel (position + 3) true rest).map (.anyComponents :: ·) := rfl

theorem parseFrom_sequence {rest : List Char} (h : rest.head? ≠ some '*') (fuel position : Nat)
    (afterSlash : Bool) :
    parseFrom (fuel + 1) position afterSlash ('*' :: rest) =
      (parseFrom fuel (position + 1) false rest).map (.anySequence :: ·) := by
  rw [parseFrom]
  · rintro tail rfl
    exact h rfl
  · rintro tail rfl
    exact h rfl

def endingPattern (ending : String) : String := "**/*" ++ ending

/-- The pattern of the paths below a directory of a name. -/
def directoryPattern (name : String) : String := "**/" ++ name ++ "/**"

theorem head?_ne_star_of_isPlain {text : String} (h : isPlain text = true) :
    text.toList.head? ≠ some '*' := by
  intro hhead
  have hstar := List.all_eq_true.1 h '*' (List.mem_of_head? hhead)
  cases hstar

theorem parse_endingPattern {ending : String} (h : isPlain ending = true) :
    Pattern.parse (endingPattern ending) =
      .ok (.anyComponents :: .anySequence :: ending.toList.map .char) := by
  have htext : (endingPattern ending).toList = '*' :: '*' :: '/' :: '*' :: ending.toList := by
    simp [endingPattern]
  have hlength : (endingPattern ending).length = ending.toList.length + 2 + 1 + 1 := by
    rw [← String.length_toList, htext]
    rfl
  rw [Pattern.parse, hlength, htext, parseFrom_components,
    parseFrom_sequence (head?_ne_star_of_isPlain h), parseFrom_of_plain h (by omega)]
  rfl

theorem parse_directoryPattern {name : String} (h : isPlain name = true) :
    Pattern.parse (directoryPattern name) =
      .ok (.anyComponents :: ((name ++ "/").toList.map .char ++ [.anyComponents])) := by
  have htext : (directoryPattern name).toList =
      '*' :: '*' :: '/' :: (name.toList ++ ['/', '*', '*']) := by
    simp [directoryPattern]
  have hlength : (directoryPattern name).length = name.toList.length + 5 + 1 := by
    rw [← String.length_toList, htext]
    simp
  -- The last two stars come after a slash, so they are whole components.
  have hrest (fuel position : Nat) (afterSlash : Bool) (hfuel : 2 ≤ fuel) :
      parseFrom fuel position afterSlash ['/', '*', '*'] = .ok [.char '/', .anyComponents] := by
    obtain ⟨n, rfl⟩ : ∃ n, fuel = n + 2 := ⟨fuel - 2, by omega⟩
    rfl
  rw [Pattern.parse, hlength, htext, parseFrom_components,
    parseFrom_append_of_plain h hrest (by omega)]
  simp [Except.map]

end Glob

namespace Scan

theorem matchedBy_endingPattern_iff {ending path : String} (h : Glob.isPlain ending = true) :
    MatchedBy (Glob.endingPattern ending) path ↔ ending.toList <:+ path.toList := by
  rw [MatchedBy, Glob.parse_endingPattern h, ← Glob.Pattern.matches_ending_iff]
  simp

theorem matchedBy_directoryPattern_iff {name path : String} (h : Glob.isPlain name = true) :
    MatchedBy (Glob.directoryPattern name) path ↔
      (name ++ "/").toList <+: path.toList ∨ '/' :: (name ++ "/").toList <:+: path.toList := by
  rw [MatchedBy, Glob.parse_directoryPattern h, ← Glob.Pattern.matches_directory_iff]
  simp

def testEndings : List String :=
  [".test.tsx", ".test.ts", ".test.jsx", ".test.js",
    ".spec.tsx", ".spec.ts", ".spec.jsx", ".spec.js"]

/-- The path of a test file, or of something in a directory for tests. -/
def IsTestPath (path : String) : Prop :=
  (∃ ending ∈ testEndings, ending.toList <:+ path.toList) ∨
    "__tests__/".toList <+: path.toList ∨ "/__tests__/".toList <:+: path.toList

theorem testPatterns_eq :
    testPatterns = testEndings.map Glob.endingPattern ++ [Glob.directoryPattern "__tests__"] := by
  decide

theorem matchedBy_testPatterns_iff {path : String} :
    (∃ text ∈ testPatterns, MatchedBy text path) ↔ IsTestPath path := by
  have hplain : ∀ ending ∈ testEndings, Glob.isPlain ending = true := by decide
  rw [testPatterns_eq, IsTestPath]
  simp only [List.mem_append, List.mem_map, List.mem_singleton, or_and_right, exists_or,
    exists_eq_left, exists_exists_and_eq_and]
  apply or_congr
  · apply exists_congr
    intro ending
    exact and_congr_right fun hmem => matchedBy_endingPattern_iff (hplain ending hmem)
  · exact matchedBy_directoryPattern_iff (by decide)

theorem ignores_ofEntries_iff (base : String) (entries : List String) (path : String) :
    (IgnoreSet.ofEntries base entries true).ignores path = true ↔
      (IgnoreSet.ofEntries base entries false).ignores path = true ∨ IsTestPath path := by
  rw [← matchedBy_testPatterns_iff, ← any_patternsOf_iff]
  simp [IgnoreSet.ignores, IgnoreSet.ofEntries, or_assoc]

/-- Without other entries exactly the paths of tests are ignored. -/
theorem ignores_tests_iff (base path : String) :
    (IgnoreSet.ofEntries base [] true).ignores path = true ↔ IsTestPath path := by
  have hnone : (IgnoreSet.ofEntries base [] false).ignores path = false := rfl
  rw [ignores_ofEntries_iff, hnone]
  exact or_iff_right Bool.false_ne_true

end Scan

end MessageKeys
