import Mathlib.Data.List.Forall2
import Mathlib.Data.List.Induction
import MessageKeys.Proofs.NumberText
import MessageKeys.Text.Source

namespace MessageKeys.Json

open Text (hexDigit?)

theorem hexDigit?_hexDigit : ∀ n < 16, hexDigit? (hexDigit n) = some n := by decide

theorem readUnit_escaped {n : Nat} (h : n < 0x20) (rest : List Char) :
    readUnit ('0' :: '0' :: hexDigit (n / 16) :: hexDigit n :: rest) = some (n, rest) := by
  have hzero : hexDigit? '0' = some 0 := rfl
  have hhigh := hexDigit?_hexDigit (n / 16) (by omega)
  have hlow : hexDigit? (hexDigit n) = some (n % 16) := by
    have hmod : hexDigit n = hexDigit (n % 16) := by rw [hexDigit, hexDigit, Nat.mod_mod]
    rw [hmod, hexDigit?_hexDigit _ (Nat.mod_lt _ (by decide))]
  simp only [readUnit, hzero, hhigh, hlow, Option.bind_eq_bind, Option.bind_some, Option.pure_def,
    Option.some.injEq, Prod.mk.injEq, and_true]
  omega

theorem readCharacter_plain {paired : Bool} {c : Char} (hb : c ≠ '\\') (hc : ¬c.toNat < 0x20)
    (rest : List Char) : readCharacter paired (c :: rest) = some (c, rest) := by
  unfold readCharacter
  split <;> simp_all

theorem readCharacter_unicode (paired : Bool) {c : Char} (hc : c.toNat < 0x20) (rest : List Char) :
    readCharacter paired
      ('\\' :: 'u' :: '0' :: '0' :: hexDigit (c.toNat / 16) :: hexDigit c.toNat :: rest) =
        some (c, rest) := by
  have hu := readUnit_escaped hc rest
  have hhigh : isHighSurrogate c.toNat = false := by
    simp only [isHighSurrogate, Bool.and_eq_false_iff, decide_eq_false_iff_not]
    omega
  have hlow : isLowSurrogate c.toNat = false := by
    simp only [isLowSurrogate, Bool.and_eq_false_iff, decide_eq_false_iff_not]
    omega
  simp [readCharacter, readUnicodeEscape, hu, hhigh, hlow]

/-- The ways to write a character: with a letter, with its number, and as it is. -/
inductive Escaped (c : Char) : List Char → Prop
  | letter {l : Char} : simpleEscape? l = some c → l ≠ 'u' → Escaped c ['\\', l]
  | unicode : c.toNat < 0x20 →
    Escaped c ['\\', 'u', '0', '0', hexDigit (c.toNat / 16), hexDigit c.toNat]
  | plain : c ≠ '"' → c ≠ '\\' → ¬c.toNat < 0x20 → Escaped c [c]

theorem escaped_ite {c d l : Char} {cs : List Char} (hl : simpleEscape? l = some d) (hu : l ≠ 'u')
    (h : c ≠ d → Escaped c cs) : Escaped c (if c = d then ['\\', l] else cs) := by
  by_cases hc : c = d
  · rw [if_pos hc]
    exact .letter (hc ▸ hl) hu
  · rw [if_neg hc]
    exact h hc

theorem escaped_escape (c : Char) : Escaped c (escape c) := by
  unfold escape
  refine escaped_ite rfl (by decide) fun hq => ?_
  refine escaped_ite rfl (by decide) fun hb => ?_
  iterate 5 refine escaped_ite rfl (by decide) fun _ => ?_
  split
  next hc => exact .unicode hc
  next hc => exact .plain hq hb hc

theorem readCharacter_letter {paired : Bool} {c l : Char} (hl : simpleEscape? l = some c)
    (hu : l ≠ 'u') (rest : List Char) :
    readCharacter paired ('\\' :: l :: rest) = some (c, rest) := by
  rw [readCharacter, hl, Option.map_some]
  exact hu

theorem readCharacter_escape (paired : Bool) (c : Char) (rest : List Char) :
    readCharacter paired (escape c ++ rest) = some (c, rest) := by
  have he := escaped_escape c
  generalize escape c = cs at he ⊢
  cases he with
  | letter hl hu => exact readCharacter_letter hl hu rest
  | unicode hc => exact readCharacter_unicode paired hc rest
  | plain _ hb hc => exact readCharacter_plain hb hc rest

theorem escape_append_ne_quote (c : Char) (t rest : List Char) : escape c ++ t ≠ '"' :: rest := by
  have he := escaped_escape c
  generalize escape c = cs at he ⊢
  intro h
  have hhead := congrArg List.head? h
  cases he with
  | letter | unicode => exact absurd hhead (by simp)
  | plain hq => exact hq (by simpa using hhead)

theorem one_le_length_escape (c : Char) : 1 ≤ (escape c).length := by
  have he := escaped_escape c
  generalize escape c = cs at he ⊢
  cases he <;> simp

theorem readCharacters_escape (paired : Bool) (cs rest : List Char) {fuel : Nat}
    (h : cs.length < fuel) :
    readCharacters paired fuel (cs.flatMap escape ++ '"' :: rest) = some (cs, rest) := by
  induction cs generalizing fuel with
  | nil =>
    obtain ⟨fuel, rfl⟩ := Nat.exists_eq_add_one_of_ne_zero (Nat.ne_zero_of_lt h)
    rfl
  | cons c cs ih =>
    obtain ⟨fuel, rfl⟩ := Nat.exists_eq_add_one_of_ne_zero (Nat.ne_zero_of_lt h)
    have hread := readCharacter_escape paired c (cs.flatMap escape ++ '"' :: rest)
    rw [List.flatMap_cons, List.append_assoc, readCharacters, hread]
    · simp [ih (Nat.lt_of_succ_lt_succ h)]
    · exact fun rest => escape_append_ne_quote c _ rest

theorem length_le_flatMap_escape (cs : List Char) : cs.length ≤ (cs.flatMap escape).length := by
  induction cs with
  | nil => exact Nat.le_refl 0
  | cons c cs ih =>
    have hc := one_le_length_escape c
    rw [List.flatMap_cons, List.length_append, List.length_cons]
    omega

theorem readString_quote (paired : Bool) (s : String) (rest : List Char) :
    readString paired (quote s ++ rest) = some (s, rest) := by
  have hlen := length_le_flatMap_escape s.toList
  have hfuel : s.toList.length < (s.toList.flatMap escape ++ '"' :: rest).length := by
    rw [List.length_append, List.length_cons]
    omega
  have hread := readCharacters_escape paired s.toList rest hfuel
  simp only [quote, List.cons_append, List.append_assoc, List.nil_append, readString, hread]
  simp

/-- A text from which a reader takes a value, whatever follows. It does not begin with a blank or a
closing bracket. -/
structure Reads {α : Type} (item : Reader α) (x : α) (text : List Char) : Prop where
  begins : ∃ c cs, text = c :: cs ∧ isSpace c = false ∧ c ≠ ']' ∧ c ≠ '\x7d'
  read : ∀ rest, EndsValue rest → item (text ++ rest) = some (x, rest)

def restText (gap last : List Char) : List (List Char) → List Char
  | [] => last
  | t :: ts => ',' :: (gap ++ (t ++ restText gap last ts))

def listText (gap last : List Char) : List (List Char) → List Char
  | [] => []
  | t :: ts => gap ++ (t ++ restText gap last ts)

section Lists

variable {α : Type} {item : Reader α} {close : Char} {gap last : List Char}

theorem Reads.skipSpace_append {x : α} {text : List Char} (h : Reads item x text)
    (hgap : ∀ c ∈ gap, isSpace c = true) (rest : List Char) :
    skipSpace (gap ++ (text ++ rest)) = text ++ rest := by
  obtain ⟨c, cs, rfl, hc, -⟩ := h.begins
  refine Text.dropWhile_append_eq hgap fun d hd => ?_
  cases hd
  exact hc

theorem endsValue_restText (gap : List Char) (hlast : ∀ c ∈ last, isSpace c = true)
    (hclose : close = ']' ∨ close = '\x7d') (ts : List (List Char)) (rest : List Char) :
    EndsValue (restText gap last ts ++ close :: rest) := by
  intro c hc
  cases ts with
  | nil =>
    cases last with
    | nil =>
      cases hc
      exact .inr (.inr hclose)
    | cons d ds =>
      cases hc
      exact .inl (hlast _ List.mem_cons_self)
  | cons t ts =>
    cases hc
    exact .inr (.inl rfl)

theorem readRest_restText (hgap : ∀ c ∈ gap, isSpace c = true)
    (hlast : ∀ c ∈ last, isSpace c = true) (hclose : close = ']' ∨ close = '\x7d')
    {xs : List α} {ts : List (List Char)} (h : List.Forall₂ (Reads item) xs ts)
    (rest : List Char) {fuel : Nat} (hfuel : xs.length < fuel) :
    readRest item close fuel (restText gap last ts ++ close :: rest) = some (xs, rest) := by
  induction h generalizing fuel with
  | nil =>
    obtain ⟨fuel, rfl⟩ := Nat.exists_eq_add_one_of_ne_zero (Nat.ne_zero_of_lt hfuel)
    have hskip : skipSpace (last ++ close :: rest) = close :: rest :=
      Text.dropWhile_append_eq hlast fun c hc => by obtain rfl | rfl := hclose <;> cases hc <;> rfl
    rw [restText, readRest, hskip]
    obtain rfl | rfl := hclose <;> rfl
  | @cons x t xs ts hx _ ih =>
    obtain ⟨fuel, rfl⟩ := Nat.exists_eq_add_one_of_ne_zero (Nat.ne_zero_of_lt hfuel)
    have hskip (cs : List Char) : skipSpace (',' :: cs) = ',' :: cs := rfl
    -- What follows an item is a comma, or the blanks and the bracket at the end.
    have hread := hx.read _ (endsValue_restText gap hlast hclose ts rest)
    have hrest := ih (Nat.lt_of_succ_lt_succ hfuel)
    rw [restText, List.cons_append, List.append_assoc, List.append_assoc, readRest, hskip]
    simp only [hx.skipSpace_append hgap, hread, hrest, Option.bind_eq_bind, Option.bind_some,
      Option.pure_def]

theorem length_le_restText (gap last : List Char) (ts : List (List Char)) :
    ts.length ≤ (restText gap last ts).length := by
  induction ts with
  | nil => exact Nat.zero_le _
  | cons t ts ih =>
    simp only [restText, List.length_cons, List.length_append]
    omega

theorem length_le_of_mem_restText (gap last : List Char) {t : List Char} {ts : List (List Char)}
    (h : t ∈ ts) : t.length ≤ (restText gap last ts).length := by
  induction ts with
  | nil => cases h
  | cons u ts ih =>
    simp only [restText, List.length_cons, List.length_append]
    rcases List.mem_cons.1 h with rfl | h
    · omega
    · have hts := ih h
      omega

theorem length_le_listText (gap last : List Char) {t : List Char} {ts : List (List Char)}
    (h : t ∈ ts) : t.length ≤ (listText gap last ts).length := by
  cases ts with
  | nil => cases h
  | cons u ts =>
    simp only [listText, List.length_append]
    rcases List.mem_cons.1 h with rfl | h
    · omega
    · have hts := length_le_of_mem_restText gap last h
      omega

theorem readList_listText (hgap : ∀ c ∈ gap, isSpace c = true)
    (hlast : ∀ c ∈ last, isSpace c = true) (hclose : close = ']' ∨ close = '\x7d')
    {xs : List α} {ts : List (List Char)} (h : List.Forall₂ (Reads item) xs ts)
    (rest : List Char) :
    readList item close (listText gap last ts ++ close :: rest) = some (xs, rest) := by
  cases h with
  | nil => obtain rfl | rfl := hclose <;> simp [listText, readList, skipSpace, isSpace]
  | @cons x t xs ts hx hxs =>
    have hread := hx.read _ (endsValue_restText gap hlast hclose ts rest)
    have hskip := hx.skipSpace_append hgap (restText gap last ts ++ close :: rest)
    obtain ⟨c, cs, rfl, -, hc⟩ := hx.begins
    have hne : c ≠ close := by obtain rfl | rfl := hclose <;> tauto
    -- Each item is written with at least a comma, so the text is long enough to count them.
    have hfuel : xs.length < (cs ++ (restText gap last ts ++ close :: rest)).length := by
      have hlen := length_le_restText gap last ts
      simp only [List.length_append, List.length_cons, hxs.length_eq]
      omega
    have hrest := readRest_restText hgap hlast hclose hxs rest hfuel
    rw [listText, readList, List.append_assoc, List.append_assoc, hskip]
    simp only [List.cons_append, hne, if_false] at hread ⊢
    simp only [hread, hrest, Option.bind_eq_bind, Option.bind_some, Option.pure_def]

end Lists

/-- Layouts put only blanks between the parts of a text. -/
structure Layout.Lawful (l : Layout) : Prop where
  lineBreak : ∀ depth, ∀ c ∈ l.lineBreak depth, isSpace c = true
  colon : ∃ blanks, l.colon = ':' :: blanks ∧ ∀ c ∈ blanks, isSpace c = true

theorem Layout.pretty_lawful : Layout.pretty.Lawful where
  lineBreak depth c hc := by
    rcases List.mem_cons.1 hc with rfl | hc
    · rfl
    · rw [(List.mem_replicate.1 hc).2]
      rfl
  colon := ⟨[' '], rfl, List.forall_mem_singleton.2 rfl⟩

/-- Values that are read as they were written: nested at most `depth` deep, with whole numbers that
are in range and no member given twice. -/
inductive Kept : (depth : Nat) → Value → Prop
  | null {depth} : Kept depth .null
  | bool {depth} (b : Bool) : Kept depth (.bool b)
  | nat {depth n} : n ≤ maxSignificand → Kept depth (.nat n)
  | string {depth} (s : String) : Kept depth (.string s)
  | array {depth vs} : (∀ v ∈ vs, Kept depth v) → Kept (depth + 1) (.array vs)
  | object {depth ms} : (ms.map Prod.fst).Nodup → (∀ m ∈ ms, Kept depth m.2) →
    Kept (depth + 1) (.object ms)

namespace Value

theorem writeItems_eq (l : Layout) (depth : Nat) (vs : List Value) :
    writeItems l depth vs =
      restText (l.lineBreak (depth + 1)) (l.lineBreak depth) (vs.map (write l (depth + 1))) := by
  induction vs with
  | nil => rfl
  | cons v vs ih => rw [writeItems, ih, List.map_cons, restText]

theorem write_array (l : Layout) (depth : Nat) (vs : List Value) :
    write l depth (array vs) = '[' :: (listText (l.lineBreak (depth + 1)) (l.lineBreak depth)
      (vs.map (write l (depth + 1))) ++ [']']) := by
  cases vs with
  | nil => rfl
  | cons v vs => rw [write, writeItems_eq, List.map_cons, listText, List.append_assoc,
      List.append_assoc]

def writeMember (l : Layout) (depth : Nat) (m : String × Value) : List Char :=
  quote m.1 ++ (l.colon ++ write l depth m.2)

theorem length_le_writeMember (l : Layout) (depth : Nat) (m : String × Value) :
    (write l depth m.2).length ≤ (writeMember l depth m).length := by
  simp only [writeMember, List.length_append]
  omega

theorem writeMembers_eq (l : Layout) (depth : Nat) (ms : List (String × Value)) :
    writeMembers l depth ms =
      restText (l.lineBreak (depth + 1)) (l.lineBreak depth)
        (ms.map (writeMember l (depth + 1))) := by
  induction ms with
  | nil => rfl
  | cons m ms ih =>
    simp only [writeMembers, ih, List.map_cons, restText, writeMember, List.append_assoc]

theorem write_object (l : Layout) (depth : Nat) (ms : List (String × Value)) :
    write l depth (object ms) = '\x7b' :: (listText (l.lineBreak (depth + 1)) (l.lineBreak depth)
      (ms.map (writeMember l (depth + 1))) ++ ['\x7d']) := by
  cases ms with
  | nil => rfl
  | cons m ms =>
    simp only [write, writeMembers_eq, List.map_cons, listText, writeMember, List.append_assoc]

end Value

theorem setMember_of_notMem {name : String} {ms : List (String × Value)}
    (h : name ∉ ms.map Prod.fst) (v : Value) : setMember name v ms = ms ++ [(name, v)] := by
  induction ms with
  | nil => rfl
  | cons m ms ih =>
    rw [List.map_cons, List.mem_cons, not_or] at h
    rw [setMember, if_neg (Ne.symm h.1), ih h.2, List.cons_append]

theorem dedupMembers_of_nodup {ms : List (String × Value)} (h : (ms.map Prod.fst).Nodup) :
    dedupMembers ms = ms := by
  induction ms using List.reverseRecOn with
  | nil => rfl
  | append_singleton ms m ih =>
    rw [List.map_append, List.nodup_append] at h
    have hm : m.1 ∉ ms.map Prod.fst := fun hmem => h.2.2 _ hmem _ List.mem_cons_self rfl
    rw [dedupMembers, List.foldl_append, ← dedupMembers, ih h.1]
    exact setMember_of_notMem hm m.2

theorem reads_member {α : Type} {l : Layout} (hl : l.Lawful) (paired : Bool)
    {value : String → Reader α} {name : String} {v : α} {text : List Char}
    (h : Reads (value name) v text) :
    Reads (readMember paired value) (name, v) (quote name ++ (l.colon ++ text)) where
  begins := ⟨'"', _, rfl, rfl, by decide, by decide⟩
  read rest hrest := by
    obtain ⟨blanks, hcolon, hb⟩ := hl.colon
    have hskip :
        skipSpace (':' :: (blanks ++ (text ++ rest))) = ':' :: (blanks ++ (text ++ rest)) := rfl
    simp only [readMember, hcolon, List.append_assoc, List.cons_append, readString_quote,
      Option.bind_eq_bind, Option.bind_some, hskip, h.skipSpace_append hb, h.read rest hrest,
      Option.pure_def]

theorem readValue_numeral (limits : Limits) (depth : Nat) {c : Char}
    (h : c.isDigit = true ∨ c = '-') (cs : List Char) :
    readValue limits depth (c :: cs) = readNumber limits.numbersInRange (c :: cs) := by
  unfold readValue
  split <;> simp_all

theorem reads_numeral {limits : Limits} (depth : Nat) {v : Value} {text : List Char}
    (ht : IsNumeral text)
    (h : ∀ rest, EndsValue rest → readNumber limits.numbersInRange (text ++ rest) = some (v, rest)) :
    Reads (readValue limits depth) v text := by
  obtain ⟨c, cs, rfl, hc⟩ := ht.begins
  refine ⟨⟨c, cs, rfl, ?_, ?_, ?_⟩, fun rest hrest => ?_⟩
  · refine Bool.eq_false_iff.2 fun hs => ?_
    simp only [isSpace, Bool.or_eq_true, decide_eq_true_eq] at hs
    obtain ((rfl | rfl) | rfl) | rfl := hs <;> simp at hc
  · rintro rfl
    simp at hc
  · rintro rfl
    simp at hc
  · rw [List.cons_append, readValue_numeral limits depth hc, ← List.cons_append, h rest hrest]

theorem exists_forall₂ {α β : Type} {r : α → β → Prop} {bs : List β}
    (h : ∀ b ∈ bs, ∃ a, r a b) : ∃ as, List.Forall₂ r as bs := by
  induction bs with
  | nil => exact ⟨[], .nil⟩
  | cons b bs ih =>
    obtain ⟨a, ha⟩ := h b List.mem_cons_self
    obtain ⟨as, has⟩ := ih fun b hb => h b (List.mem_cons_of_mem _ hb)
    exact ⟨a :: as, .cons ha has⟩

section Values

variable {l : Layout} (hl : l.Lawful) (limits : Limits)
include hl

theorem reads_array {depth indent : Nat} {vs ws : List Value}
    (h : List.Forall₂ (Reads (readValue limits depth)) ws (vs.map (Value.write l (indent + 1)))) :
    Reads (readValue limits (depth + 1)) (.array ws) ((Value.array vs).write l indent) := by
  refine ⟨⟨'[', _, Value.write_array .., rfl, by decide, by decide⟩, fun rest _ => ?_⟩
  have hread := readList_listText (hl.lineBreak (indent + 1)) (hl.lineBreak indent) (.inl rfl)
    h rest
  rw [Value.write_array]
  unfold readValue
  simp only [List.cons_append, List.append_assoc, List.nil_append, hread, Option.map_some]

theorem reads_object {depth indent : Nat} {ms ws : List (String × Value)}
    (h : List.Forall₂
      (Reads (readMember limits.pairedSurrogates fun _ => readValue limits depth)) ws
      (ms.map (Value.writeMember l (indent + 1)))) :
    Reads (readValue limits (depth + 1)) (.object (dedupMembers ws))
      ((Value.object ms).write l indent) := by
  refine ⟨⟨'\x7b', _, Value.write_object .., rfl, by decide, by decide⟩, fun rest _ => ?_⟩
  have hread := readList_listText (hl.lineBreak (indent + 1)) (hl.lineBreak indent) (.inr rfl)
    h rest
  rw [Value.write_object]
  unfold readValue
  simp only [List.cons_append, List.append_assoc, List.nil_append, hread, Option.map_some]

theorem reads_value {depth : Nat} {v : Value} (h : Kept depth v) (indent : Nat) :
    Reads (readValue limits depth) v (v.write l indent) := by
  -- The depth that may still be nested is that of the derivation, so it goes down with the value;
  -- the indentation goes up.
  induction h generalizing indent with
  | null => exact ⟨⟨'n', _, rfl, rfl, by decide, by decide⟩, fun rest _ => by unfold readValue; rfl⟩
  | bool b =>
    cases b
    · exact ⟨⟨'f', _, rfl, rfl, by decide, by decide⟩, fun rest _ => by unfold readValue; rfl⟩
    · exact ⟨⟨'t', _, rfl, rfl, by decide, by decide⟩, fun rest _ => by unfold readValue; rfl⟩
  | nat hn =>
    exact reads_numeral _ (Number.isNumeral_write _) fun rest hrest => readNumber_nat _ hn hrest
  | string s =>
    refine ⟨⟨'"', _, rfl, rfl, by decide, by decide⟩, fun rest _ => ?_⟩
    have hread := readString_quote limits.pairedSurrogates s rest
    rw [Value.write]
    unfold readValue
    simp only [quote, List.cons_append] at hread ⊢
    rw [hread]
    rfl
  | array _ ih =>
    refine reads_array hl limits ?_
    exact List.forall₂_map_right_iff.2 (List.forall₂_same.2 fun v hv => ih v hv _)
  | @object depth ms hnodup _ ih =>
    have hmembers : List.Forall₂
        (Reads (readMember limits.pairedSurrogates fun _ => readValue limits depth)) ms
        (ms.map (Value.writeMember l (indent + 1))) :=
      List.forall₂_map_right_iff.2 (List.forall₂_same.2 fun m hm => reads_member hl _ (ih m hm _))
    have hreads := reads_object hl limits hmembers
    rwa [dedupMembers_of_nodup hnodup] at hreads

/-- Every value can be read where numbers need not be in range and nesting is bounded only by the
length of its text. -/
theorem exists_reads (hnumbers : limits.numbersInRange = false) {depth : Nat} {v : Value}
    {indent : Nat} (h : (v.write l indent).length < depth) :
    ∃ w, Reads (readValue limits depth) w (v.write l indent) := by
  -- An item's text is shorter than its list's, so the depth goes down with the text.
  induction depth generalizing v indent with
  | zero => exact absurd h (Nat.not_lt_zero _)
  | succ depth ih =>
    cases v with
    | null => exact ⟨_, reads_value hl limits .null indent⟩
    | bool b => exact ⟨_, reads_value hl limits (.bool b) indent⟩
    | string s => exact ⟨_, reads_value hl limits (.string s) indent⟩
    | number n =>
      have hn := n.isNumeral_write
      obtain ⟨numeral, hread⟩ := hn.readNumeral_append
      rw [Value.write]
      refine ⟨(numeral.value?.map Value.number).getD .null, ?_⟩
      refine reads_numeral _ hn fun rest hrest => ?_
      rw [readNumber, hread rest hrest, hnumbers]
      rfl
    | array vs =>
      rw [Value.write_array, List.length_cons, List.length_append, List.length_singleton] at h
      have hitems : ∀ t ∈ vs.map (Value.write l (indent + 1)),
          ∃ w, Reads (readValue limits depth) w t := by
        intro t ht
        have hlen := length_le_listText (l.lineBreak (indent + 1)) (l.lineBreak indent) ht
        obtain ⟨v, -, rfl⟩ := List.mem_map.1 ht
        exact ih (by omega)
      obtain ⟨ws, hws⟩ := exists_forall₂ hitems
      exact ⟨_, reads_array hl limits hws⟩
    | object ms =>
      rw [Value.write_object, List.length_cons, List.length_append, List.length_singleton] at h
      have hitems : ∀ t ∈ ms.map (Value.writeMember l (indent + 1)),
          ∃ w, Reads (readMember limits.pairedSurrogates fun _ => readValue limits depth) w t := by
        intro t ht
        have hlen := length_le_listText (l.lineBreak (indent + 1)) (l.lineBreak indent) ht
        obtain ⟨m, -, rfl⟩ := List.mem_map.1 ht
        have hvalue := Value.length_le_writeMember l (indent + 1) m
        have hlt : (m.2.write l (indent + 1)).length < depth := by omega
        obtain ⟨w, hw⟩ := ih hlt
        exact ⟨_, reads_member hl _ hw⟩
      obtain ⟨ws, hws⟩ := exists_forall₂ hitems
      exact ⟨_, reads_object hl limits hws⟩

end Values

theorem parse?_pretty {v : Value} (h : Kept Limits.kept.depth v) {blanks : List Char}
    (hb : ∀ c ∈ blanks, isSpace c = true) :
    Value.parse? (v.pretty.toList ++ blanks) = some v := by
  have hreads := reads_value Layout.pretty_lawful .kept h 0
  have hends : EndsValue blanks := fun c hc => .inl (hb c (List.mem_of_mem_head? hc))
  have hskip : skipSpace (v.write .pretty 0 ++ blanks) = v.write .pretty 0 ++ blanks := by
    have hempty : ∀ c ∈ ([] : List Char), isSpace c = true := by simp
    simpa using hreads.skipSpace_append hempty blanks
  have hend : skipSpace (blanks ++ []) = [] := Text.dropWhile_append_eq hb (by simp)
  rw [List.append_nil] at hend
  rw [Value.parse?, Value.pretty, String.toList_ofList, hskip, hreads.read blanks hends]
  simp [atEnd, hend]

theorem kept_strings (depth : Nat) (ss : List String) : Kept (depth + 1) (.strings ss) := by
  refine .array fun v hv => ?_
  obtain ⟨s, -, rfl⟩ := List.mem_map.1 hv
  exact .string s

end MessageKeys.Json
