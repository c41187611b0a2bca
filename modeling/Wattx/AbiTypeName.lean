import Wattx.AbiLayout
/-!
# AbiTypeName — the type names `ParameterType::determine` accepts

A parameter of a contract's interface names its type: a basic type (`uint`, `int`, `address`, `bool`, `fixed`,
`ufixed`, `bytes`, `string`), then the digits of its size, an optional `x` and decimal size, and an optional list
suffix `[N]` or `[]`; `typeText` spells such a name from its parts.  `determine` reads every spelled name back into
its parts, with the size checks of `checkSizes` on what it read (`determine_typeText`), and every name it accepts is
a spelled one (`determine_sound`): it accepts exactly the spelled names whose sizes pass (`determine_accepts_iff`).
The sizes are what glibc's `atoi` makes of the digits, so a size past the range of an `int` is checked as its low 32
bits.

Both directions rest on the scanner.  No basic type's name begins with the same two bytes as one tried before it, so
the first name that matches is the name the string begins with (`basicType_append`, `basicType_eq`); a number is read
up to the first byte that is not a digit, and a literal matches exactly where it stands (`startsWithNumber_of_eq`,
`startsWithString_of_eq`, and their converses `startsWithNumber_eq`, `startsWithString_true`).
-/
namespace Wattx
namespace ContractAbi

/-- Bytes that are all decimal digits. -/
def Digits (s : List UInt8) : Prop := ∀ c ∈ s, isDigit c = true

/-- The `x` and decimal size of a fixed-point type's name, or nothing. -/
def decimalText : Option (List UInt8) → List UInt8
  | none => []
  | some ds => ascii "x" ++ ds

/-- The list suffix of a name: `[N]` or `[]`, or nothing. -/
def listText : Option (List UInt8) → List UInt8
  | none => []
  | some ds => ascii "[" ++ ds ++ ascii "]"

/-- The name of a type: a basic type's name, the digits of its size, then a decimal size and a list suffix, each
optional. -/
def typeText (name whole : List UInt8) (decimal list : Option (List UInt8)) : List UInt8 :=
  name ++ (whole ++ (decimalText decimal ++ listText list))

/-! ### The scanner -/

/-- `startsWithNumber` reads the digits that stand at `pos`, up to a byte that is not one. -/
theorem startsWithNumber_of_eq (pre ds rest : List UInt8) {str : List UInt8} (hstr : str = pre ++ (ds ++ rest))
    (hds : ∀ c ∈ ds, isDigit c = true) (hrest : ∀ c ∈ rest.head?, isDigit c = false) :
    startsWithNumber str pre.length = (ds, pre.length + ds.length) := by
  subst hstr
  unfold startsWithNumber
  split_ifs with hend
  · -- nothing stands at `pos`: no digits to read
    have hnil : ds ++ rest = [] := by
      rw [← List.length_eq_zero_iff]
      simp only [List.length_append] at hend ⊢
      omega
    obtain ⟨rfl, -⟩ := List.append_eq_nil_iff.1 hnil
    rfl
  · have hstop : rest.takeWhile isDigit = [] := by
      cases rest with
      | nil => rfl
      | cons c rest => exact List.takeWhile_cons_of_neg (by simp [hrest c rfl])
    rw [List.drop_left' rfl, List.takeWhile_append_of_pos hds, hstop, List.append_nil]

theorem startsWithString_of_eq (pre s rest : List UInt8) {str : List UInt8} (hstr : str = pre ++ (s ++ rest))
    (hs : s ≠ []) : startsWithString str s pre.length = (true, pre.length + s.length) := by
  subst hstr
  have hlen : ¬pre.length ≥ (pre ++ (s ++ rest)).length := by
    have := List.length_pos_iff.2 hs
    simp only [List.length_append]
    omega
  simp only [startsWithString, if_neg hlen, List.drop_left' rfl, List.take_left' rfl, if_true]

/-- `startsWithString` finds no literal at `pos` when another byte, or nothing, stands there. -/
theorem startsWithString_of_head (pre rest : List UInt8) {str s : List UInt8} (hstr : str = pre ++ rest)
    (hs : s ≠ []) (hhead : ∀ c ∈ rest.head?, some c ≠ s.head?) :
    startsWithString str s pre.length = (false, pre.length) := by
  subst hstr
  unfold startsWithString
  split_ifs with hend hmatch
  · rfl
  · -- the literal's first byte would be the byte at `pos`
    obtain ⟨d, s', rfl⟩ := List.exists_cons_of_ne_nil hs
    rw [List.drop_left' rfl] at hmatch
    cases rest with
    | nil => simp at hmatch
    | cons c rest =>
      simp only [List.length_cons, List.take_succ_cons, List.cons.injEq] at hmatch
      exact absurd (congrArg some hmatch.1) (hhead c rfl)
  · rfl

/-- What a matched literal tells of the string: it stands at `pos`, and the scan moves past it. -/
theorem startsWithString_true {str s : List UInt8} {pos pos' : Nat} (h : startsWithString str s pos = (true, pos')) :
    pos' = pos + s.length ∧ str.drop pos = s ++ str.drop pos' := by
  unfold startsWithString at h
  split_ifs at h with hend hmatch
  · cases h
  · obtain rfl := (Prod.mk.inj h).2
    refine ⟨rfl, ?_⟩
    calc str.drop pos = (str.drop pos).take s.length ++ (str.drop pos).drop s.length := (List.take_append_drop _ _).symm
      _ = s ++ str.drop (pos + s.length) := by rw [hmatch, List.drop_drop]
  · cases h

theorem startsWithString_false {str s : List UInt8} {pos pos' : Nat} (h : startsWithString str s pos = (false, pos')) :
    pos' = pos := by
  unfold startsWithString at h
  split_ifs at h
  · exact (Prod.mk.inj h).2.symm
  · cases h
  · exact (Prod.mk.inj h).2.symm

theorem dropWhile_eq_drop_length {α : Type} (p : α → Bool) (l : List α) :
    l.dropWhile p = l.drop (l.takeWhile p).length := by
  have hsplit : l.takeWhile p ++ l.dropWhile p = l := List.takeWhile_append_dropWhile
  calc l.dropWhile p = (l.takeWhile p ++ l.dropWhile p).drop (l.takeWhile p).length := (List.drop_left' rfl).symm
    _ = l.drop (l.takeWhile p).length := by rw [hsplit]

/-- What a scanned number tells of the string: its digits stand at `pos`, and the scan moves past them. -/
theorem startsWithNumber_eq {str ds : List UInt8} {pos pos' : Nat} (h : startsWithNumber str pos = (ds, pos')) :
    pos' = pos + ds.length ∧ Digits ds ∧ str.drop pos = ds ++ str.drop pos' := by
  unfold startsWithNumber at h
  split_ifs at h with hend
  · obtain ⟨rfl, rfl⟩ := Prod.mk.inj h
    refine ⟨rfl, by simp [Digits], rfl⟩
  · obtain ⟨rfl, rfl⟩ := Prod.mk.inj h
    refine ⟨rfl, fun c hc => List.mem_takeWhile_imp hc, ?_⟩
    rw [← List.drop_drop, ← dropWhile_eq_drop_length, List.takeWhile_append_dropWhile]

/-! ### The basic type -/

/-- No two names that `determine` tries begin with the same two bytes. -/
theorem basicTypes_prefixes_nodup : (basicTypes.map fun entry => (ascii entry.1).take 2).Nodup := by decide

theorem basicTypes_length : ∀ entry ∈ basicTypes, 2 ≤ (ascii entry.1).length := by decide

theorem basicTypes_ne_none : ∀ entry ∈ basicTypes, entry.2 ≠ .abi_none := by decide

theorem take_two_of_startsWithString {name e rest : List UInt8} (hn : 2 ≤ name.length) (he : 2 ≤ e.length)
    (h : (startsWithString (name ++ rest) e 0).1 = true) : name.take 2 = e.take 2 := by
  unfold startsWithString at h
  split_ifs at h with hend hmatch
  have htwo := congrArg (List.take 2) hmatch
  rwa [List.drop_zero, List.take_take, Nat.min_eq_left he, List.take_append_of_le_length hn] at htwo

/-- `determine` takes the basic type a name begins with, whatever follows it. -/
theorem basicType_append {name : String} {type : AbiType} (hname : (name, type) ∈ basicTypes) (rest : List UInt8) :
    basicType (ascii name ++ rest) = (type, (ascii name).length) := by
  obtain ⟨pre, post, hsplit⟩ := List.mem_iff_append.1 hname
  have hlen : 2 ≤ (ascii name).length := basicTypes_length (name, type) hname
  -- every name tried before this one begins otherwise
  have hbefore : ∀ entry ∈ pre, (startsWithString (ascii name ++ rest) (ascii entry.1) 0).1 = false := by
    intro entry hentry
    have hne : (ascii entry.1).take 2 ≠ (ascii name).take 2 := by
      have hnodup := basicTypes_prefixes_nodup
      rw [hsplit, List.map_append, List.map_cons] at hnodup
      exact (List.nodup_append.1 hnodup).2.2 _ (List.mem_map_of_mem hentry) _ List.mem_cons_self
    have hentry_len := basicTypes_length entry (hsplit ▸ List.mem_append_left _ hentry)
    cases hs : (startsWithString (ascii name ++ rest) (ascii entry.1) 0).1 with
    | false => rfl
    | true => exact absurd (take_two_of_startsWithString hlen hentry_len hs).symm hne
  have hself : (startsWithString (ascii name ++ rest) (ascii name) 0).1 = true := by
    have := startsWithString_of_eq [] (ascii name) rest (List.nil_append (ascii name ++ rest)).symm
      (List.ne_nil_of_length_pos (by omega))
    rw [List.length_nil] at this
    rw [this]
  have hfind : basicTypes.find? (fun entry => (startsWithString (ascii name ++ rest) (ascii entry.1) 0).1) =
      some (name, type) := by
    rw [hsplit, List.find?_append, List.find?_eq_none.2 (fun entry hentry => by simp [hbefore entry hentry]),
      Option.none_or]
    simp only [List.find?_cons, hself]
  simp only [basicType, hfind]

theorem basicType_eq {str : List UInt8} {type : AbiType} {pos : Nat} (h : basicType str = (type, pos))
    (htype : type ≠ .abi_none) : ∃ name, (name, type) ∈ basicTypes ∧ str = ascii name ++ str.drop pos := by
  unfold basicType at h
  split at h
  · rename_i name t hfind
    obtain ⟨rfl, rfl⟩ := Prod.mk.inj h
    refine ⟨name, List.mem_of_find?_eq_some hfind, ?_⟩
    have hfound := List.find?_some hfind
    cases hs : startsWithString str (ascii name) 0 with
    | mk found pos' =>
      rw [hs] at hfound
      subst hfound
      obtain ⟨hpos', hdrop⟩ := startsWithString_true hs
      rw [Nat.zero_add] at hpos'
      rw [List.drop_zero, hpos'] at hdrop
      exact hdrop
  · exact absurd (Prod.mk.inj h).1.symm htype

/-! ### The whole name -/

section Name

variable {name : String} {type : AbiType} (whole : List UInt8) (decimal list : Option (List UInt8))

theorem ascii_x : ascii "x" = [120] := rfl

theorem ascii_lbracket : ascii "[" = [91] := rfl

theorem ascii_rbracket : ascii "]" = [93] := rfl

theorem decimalText_listText_head : ∀ c ∈ (decimalText decimal ++ listText list).head?, isDigit c = false := by
  intro c hc
  cases decimal with
  | some ds => simp only [decimalText, ascii_x, List.cons_append, List.nil_append, List.head?_cons, Option.mem_def,
      Option.some.injEq] at hc; subst hc; decide
  | none =>
    cases list with
    | none => cases hc
    | some ds => simp only [decimalText, listText, ascii_lbracket, List.nil_append, List.cons_append,
        List.head?_cons, Option.mem_def, Option.some.injEq] at hc; subst hc; decide

/-- The decimal part scanned from where it starts: `x` and the digits, or no `x` before what follows. -/
theorem decimalText_scan (pre : List UInt8) (decimal : Option (List UInt8)) (rest : List UInt8) {str : List UInt8}
    (hstr : str = pre ++ (decimalText decimal ++ rest)) (hdecimal : ∀ ds ∈ decimal, Digits ds)
    (hrest : ∀ c ∈ rest.head?, isDigit c = false ∧ some c ≠ [120].head?) :
    startsWithString str [120] pre.length = (decimal.isSome, pre.length + (if decimal.isSome then 1 else 0)) ∧
      ∀ ds ∈ decimal, startsWithNumber str (pre.length + 1) = (ds, pre.length + 1 + ds.length) := by
  cases decimal with
  | none =>
    refine ⟨?_, fun _ h => nomatch h⟩
    simpa using startsWithString_of_head pre rest (hstr.trans (by simp [decimalText])) (by decide)
      (fun c hc => (hrest c hc).2)
  | some ds =>
    have hx := startsWithString_of_eq pre [120] (ds ++ rest) (hstr.trans (by simp [decimalText, ascii_x]))
      (by decide)
    have hdigits := startsWithNumber_of_eq (pre ++ [120]) ds rest (hstr.trans (by simp [decimalText, ascii_x]))
      (hdecimal ds rfl) (fun c hc => (hrest c hc).1)
    simp only [List.length_append, List.length_singleton] at hx hdigits
    refine ⟨by simpa using hx, fun ds' hds => ?_⟩
    cases hds
    exact hdigits

theorem listText_head (list : Option (List UInt8)) :
    ∀ c ∈ (listText list).head?, isDigit c = false ∧ some c ≠ [120].head? := by
  intro c hc
  cases list with
  | none => cases hc
  | some ls =>
    simp only [listText, ascii_lbracket, List.cons_append, List.head?_cons, Option.mem_def, Option.some.injEq] at hc
    subst hc
    decide

/-- The list suffix scanned from where it starts: `[`, the digits, `]`, or nothing. -/
theorem listText_scan (pre : List UInt8) (list : Option (List UInt8)) {str : List UInt8}
    (hstr : str = pre ++ listText list) (hlist : ∀ ds ∈ list, Digits ds) :
    startsWithString str [91] pre.length = (list.isSome, pre.length + (if list.isSome then 1 else 0)) ∧
      ∀ ls ∈ list, startsWithNumber str (pre.length + 1) = (ls, pre.length + 1 + ls.length) ∧
        startsWithString str [93] (pre.length + 1 + ls.length) = (true, pre.length + 1 + ls.length + 1) := by
  cases list with
  | none =>
    refine ⟨?_, fun _ h => nomatch h⟩
    simpa using startsWithString_of_head pre [] (hstr.trans (by simp [listText])) (by decide) (fun _ h => nomatch h)
  | some ls =>
    have hopen := startsWithString_of_eq pre [91] (ls ++ [93])
      (hstr.trans (by simp [listText, ascii_lbracket, ascii_rbracket])) (by decide)
    have hdigits := startsWithNumber_of_eq (pre ++ [91]) ls [93]
      (hstr.trans (by simp [listText, ascii_lbracket, ascii_rbracket])) (hlist ls rfl)
      (fun c hc => by simp at hc; subst hc; decide)
    have hclose := startsWithString_of_eq (pre ++ [91] ++ ls) [93] []
      (hstr.trans (by simp [listText, ascii_lbracket, ascii_rbracket])) (by decide)
    simp only [List.length_append, List.length_singleton] at hopen hdigits hclose
    refine ⟨by simpa using hopen, fun ls' hls => ?_⟩
    cases hls
    exact ⟨hdigits, hclose⟩

/-- **`determine` reads a spelled name back into its parts**: for every basic type's name followed by digits, an
optional `x` and a non-empty decimal size, and an optional list suffix, it reads that basic type, the sizes and the
list length as numbers, whether it is a list, and `checkSizes` of what it read decides the name's validity. -/
theorem determine_typeText (hname : (name, type) ∈ basicTypes) (hwhole : Digits whole)
    (hdecimal : ∀ ds ∈ decimal, ds ≠ [] ∧ Digits ds) (hlist : ∀ ds ∈ list, Digits ds) :
    ParameterType.determine (typeText (ascii name) whole decimal list) =
      ⟨type, (checkSizes type (atoi whole) (atoi (decimal.getD [])) true).1, atoi (decimal.getD []),
        atoi (list.getD []), list.isSome, (checkSizes type (atoi whole) (atoi (decimal.getD [])) true).2⟩ := by
  have hbasic : basicType (typeText (ascii name) whole decimal list) = (type, (ascii name).length) :=
    basicType_append hname _
  have hne := basicTypes_ne_none (name, type) hname
  have hwhole' : startsWithNumber (typeText (ascii name) whole decimal list) (ascii name).length =
      (whole, (ascii name).length + whole.length) :=
    startsWithNumber_of_eq (ascii name) whole _ rfl hwhole (decimalText_listText_head decimal list)
  -- after the size come the decimal part and the list suffix, each scanned where it starts
  have hdec := decimalText_scan (ascii name ++ whole) decimal (listText list)
    (show typeText (ascii name) whole decimal list = _ by simp [typeText]) (fun ds hds => (hdecimal ds hds).2)
    (listText_head list)
  simp only [List.length_append] at hdec
  cases decimal with
  | none =>
    have hlst := listText_scan (ascii name ++ whole) list
      (show typeText (ascii name) whole none list = _ by simp [typeText, decimalText]) hlist
    simp only [List.length_append, Option.isSome_none, Bool.false_eq_true, if_false, Nat.add_zero] at hdec hlst
    cases list with
    | none =>
      simp only [ParameterType.determine, hbasic, hne, if_false, ascii_x, ascii_lbracket, ascii_rbracket,
        hwhole', hdec.1, hlst.1, Option.isSome_none, Bool.false_eq_true, Nat.add_zero]
      simp [typeText, decimalText, listText]
    | some ls =>
      obtain ⟨hdigits, hclose⟩ := hlst.2 ls rfl
      simp only [ParameterType.determine, hbasic, hne, if_false, ascii_x, ascii_lbracket, ascii_rbracket,
        hwhole', hdec.1, hlst.1, Option.isSome_some, if_true, hdigits, hclose, Bool.false_eq_true]
      have hlen : (typeText (ascii name) whole none (some ls)).length =
          (ascii name).length + whole.length + 1 + ls.length + 1 := by
        simp [typeText, decimalText, listText, ascii_lbracket, ascii_rbracket]
        omega
      simp [hlen]
  | some ds =>
    have hempty : ds.isEmpty = false := by
      cases ds with
      | nil => exact absurd rfl (hdecimal [] rfl).1
      | cons _ _ => rfl
    have hdigits := hdec.2 ds rfl
    have hlst := listText_scan (ascii name ++ whole ++ [120] ++ ds) list
      (show typeText (ascii name) whole (some ds) list = _ by simp [typeText, decimalText, ascii_x]) hlist
    simp only [List.length_append, List.length_singleton, Option.isSome_some, if_true] at hdec hlst
    cases list with
    | none =>
      simp only [Option.isSome_none, Bool.false_eq_true, if_false, Nat.add_zero] at hlst
      simp only [ParameterType.determine, hbasic, hne, if_false, ascii_x, ascii_lbracket, ascii_rbracket,
        hwhole', hdec.1, hdigits, if_true, hlst.1, Bool.false_eq_true]
      have hlen : (typeText (ascii name) whole (some ds) none).length =
          (ascii name).length + whole.length + 1 + ds.length := by
        simp [typeText, decimalText, listText, ascii_x]
        omega
      simp [hlen, hempty]
    | some ls =>
      obtain ⟨hlength, hclose⟩ := hlst.2 ls rfl
      simp only [ParameterType.determine, hbasic, hne, if_false, ascii_x, ascii_lbracket, ascii_rbracket,
        hwhole', hdec.1, hdigits, if_true, hlst.1, Option.isSome_some, hlength, hclose]
      have hlen : (typeText (ascii name) whole (some ds) (some ls)).length =
          (ascii name).length + whole.length + 1 + ds.length + 1 + ls.length + 1 := by
        simp [typeText, decimalText, listText, ascii_x, ascii_lbracket, ascii_rbracket]
        omega
      simp [hlen, hempty]

/-- The decimal part as `determine` scans it, read back: an `x` and digits, or nothing. -/
theorem decimalText_unscan {str strDecimal : List UInt8} {hasDecimal : Bool} {pos1 pos2 pos3 : Nat}
    (h2 : startsWithString str [120] pos1 = (hasDecimal, pos2))
    (h3 : (if hasDecimal then startsWithNumber str pos2 else ([], pos2)) = (strDecimal, pos3)) :
    ∃ decimal : Option (List UInt8), (∀ ds ∈ decimal, Digits ds) ∧ decimal.isSome = hasDecimal ∧
      decimal.getD [] = strDecimal ∧ str.drop pos1 = decimalText decimal ++ str.drop pos3 := by
  cases hasDecimal with
  | false =>
    obtain rfl := startsWithString_false h2
    obtain ⟨rfl, rfl⟩ := Prod.mk.inj h3
    exact ⟨none, (fun _ h => nomatch h), rfl, rfl, rfl⟩
  | true =>
    obtain ⟨rfl, hx⟩ := startsWithString_true h2
    obtain ⟨rfl, hdigits, hds⟩ := startsWithNumber_eq h3
    refine ⟨some strDecimal, fun ds hds' => by cases hds'; exact hdigits, rfl, rfl, ?_⟩
    rw [hx, hds, decimalText, ascii_x, List.singleton_append, List.singleton_append, List.cons_append]

/-- The list suffix as `determine` scans it, read back when it closes: `[`, digits and `]`, or nothing. -/
theorem listText_unscan {str strLength : List UInt8} {hasList isList : Bool} {pos3 pos4 pos5 pos6 : Nat}
    (h4 : startsWithString str [91] pos3 = (hasList, pos4))
    (h5 : (if hasList then startsWithNumber str pos4 else ([], pos4)) = (strLength, pos5))
    (h6 : (if hasList then startsWithString str [93] pos5 else (false, pos5)) = (isList, pos6))
    (hclosed : (!hasList || isList) = true) :
    ∃ list : Option (List UInt8), (∀ ds ∈ list, Digits ds) ∧ list.isSome = isList ∧ list.getD [] = strLength ∧
      str.drop pos3 = listText list ++ str.drop pos6 := by
  cases hasList with
  | false =>
    obtain rfl := startsWithString_false h4
    obtain ⟨rfl, rfl⟩ := Prod.mk.inj h5
    obtain ⟨rfl, rfl⟩ := Prod.mk.inj h6
    exact ⟨none, (fun _ h => nomatch h), rfl, rfl, rfl⟩
  | true =>
    obtain rfl : isList = true := by simpa using hclosed
    obtain ⟨rfl, hopen⟩ := startsWithString_true h4
    obtain ⟨rfl, hdigits, hls⟩ := startsWithNumber_eq h5
    obtain ⟨rfl, hclose⟩ := startsWithString_true h6
    refine ⟨some strLength, fun ds hds' => by cases hds'; exact hdigits, rfl, rfl, ?_⟩
    rw [hopen, hls, hclose, listText, ascii_lbracket, ascii_rbracket]
    simp

/-- What `ParameterType::determine` decides with the size checks, `ret`, is what they return for a valid type. -/
theorem checkSizes_ret {type : AbiType} {whole decimal : Int} {ret : Bool} (h : (checkSizes type whole decimal ret).2 = true) :
    ret = true := by
  cases ret with
  | false => simp [checkSizes] at h
  | true => rfl

/-- **What `determine` accepts is a spelled name**: a basic type's name, digits, an optional `x` and non-empty
digits, and an optional list suffix of digits, and nothing after it. -/
theorem determine_sound {str : List UInt8} (hvalid : (ParameterType.determine str).valid = true)
    (htype : (ParameterType.determine str).type ≠ .abi_none) :
    ∃ name whole decimal list, (name, (ParameterType.determine str).type) ∈ basicTypes ∧ Digits whole ∧
      (∀ ds ∈ decimal, ds ≠ [] ∧ Digits ds) ∧ (∀ ds ∈ list, Digits ds) ∧
      str = typeText (ascii name) whole decimal list := by
  -- name what each scan of `determine` returns
  cases hb : basicType str with
  | mk type pos0 =>
  have htype' : type ≠ .abi_none := by
    intro hnone
    apply htype
    simp [ParameterType.determine, hb, hnone]
  have htypeEq : (ParameterType.determine str).type = type := by
    simp [ParameterType.determine, hb, htype']
  obtain ⟨name, hname, hstr0⟩ := basicType_eq hb htype'
  cases h1 : startsWithNumber str pos0 with
  | mk strWhole pos1 =>
  cases h2 : startsWithString str [120] pos1 with
  | mk hasDecimal pos2 =>
  cases h3 : (if hasDecimal then startsWithNumber str pos2 else ([], pos2)) with
  | mk strDecimal pos3 =>
  cases h4 : startsWithString str [91] pos3 with
  | mk hasList pos4 =>
  cases h5 : (if hasList then startsWithNumber str pos4 else ([], pos4)) with
  | mk strLength pos5 =>
  cases h6 : (if hasList then startsWithString str [93] pos5 else (false, pos5)) with
  | mk isList pos6 =>
  -- a valid type is one whose name parsed to its end
  have hret : ((!hasDecimal || !strDecimal.isEmpty) && (!hasList || isList) && str.length == pos6) = true := by
    simp only [ParameterType.determine, hb, htype', if_false, ascii_x, ascii_lbracket, ascii_rbracket, h1, h2, h3,
      h4, h5, h6] at hvalid
    exact checkSizes_ret hvalid
  simp only [Bool.and_eq_true, beq_iff_eq] at hret
  obtain ⟨⟨hnonempty, hclosed⟩, hend⟩ := hret
  obtain ⟨hpos1, hwhole, hdrop1⟩ := startsWithNumber_eq h1
  obtain ⟨decimal, hdecimal, hdecimalSome, hdecimalText, hdrop3⟩ := decimalText_unscan h2 h3
  obtain ⟨list, hlist, -, -, hdrop6⟩ := listText_unscan h4 h5 h6 hclosed
  refine ⟨name, strWhole, decimal, list, htypeEq ▸ hname, hwhole, fun ds hds => ⟨?_, hdecimal ds hds⟩, hlist, ?_⟩
  · -- an `x` is followed by at least one digit
    cases hds
    subst hdecimalSome hdecimalText
    simpa using hnonempty
  · rw [hstr0, hdrop1, hdrop3, hdrop6, ← hend, List.drop_length, List.append_nil, typeText]

/-- **`ParameterType::determine` accepts exactly the spelled names whose sizes pass its checks**, and reads each back
into its parts: the basic type, the size and decimal size as numbers, the list length, and whether it is a list. -/
theorem determine_accepts_iff (str : List UInt8) :
    ((ParameterType.determine str).valid = true ∧ (ParameterType.determine str).type ≠ .abi_none) ↔
      ∃ name type whole decimal list, (name, type) ∈ basicTypes ∧ Digits whole ∧
        (∀ ds ∈ decimal, ds ≠ [] ∧ Digits ds) ∧ (∀ ds ∈ list, Digits ds) ∧
        str = typeText (ascii name) whole decimal list ∧
        (checkSizes type (atoi whole) (atoi (decimal.getD [])) true).2 = true ∧
        ParameterType.determine str = ⟨type, (checkSizes type (atoi whole) (atoi (decimal.getD [])) true).1,
          atoi (decimal.getD []), atoi (list.getD []), list.isSome, true⟩ := by
  constructor
  · rintro ⟨hvalid, htype⟩
    obtain ⟨name, whole, decimal, list, hname, hwhole, hdecimal, hlist, hstr⟩ := determine_sound hvalid htype
    have hdet := determine_typeText whole decimal list hname hwhole hdecimal hlist
    rw [← hstr] at hdet
    have hcheck : (checkSizes (ParameterType.determine str).type (atoi whole) (atoi (decimal.getD [])) true).2 =
        true := by
      rw [hdet] at hvalid
      exact hvalid
    refine ⟨name, _, whole, decimal, list, hname, hwhole, hdecimal, hlist, hstr, hcheck, hdet.trans ?_⟩
    rw [hcheck]
  · rintro ⟨name, type, whole, decimal, list, hname, hwhole, hdecimal, hlist, rfl, hcheck, -⟩
    rw [determine_typeText whole decimal list hname hwhole hdecimal hlist]
    exact ⟨hcheck, basicTypes_ne_none _ hname⟩

example : ParameterType.determine (ascii "uint256[]") = ⟨.abi_uint, 256, 0, 0, true, true⟩ := by decide

-- `atoi` keeps the low 32 bits of the size: `2 ^ 32 + 256` names a `uint256`
example : ParameterType.determine (ascii "uint4294967552") = ⟨.abi_uint, 256, 0, 0, false, true⟩ := by decide

end Name

end ContractAbi
end Wattx
