import CertKeeper.Duration

/-!
# The grammar of durations

A duration is `0`, or a sum of terms that are written one after the other: each is a number and a
unit, without a sign and without blanks between them. The reader takes as many digits as there are
and the first spelling of a unit that fits. That is never too much, because no unit starts with a
digit or a point, and no term starts with the letter that `ms` has and `m` has not.
-/

namespace CertKeeper.Duration

def IsDigits (ds : List Char) : Prop := ∀ d ∈ ds, d.isDigit

/-- Numbers, with or without a point. There is a digit before the point, or after it. -/
inductive IsNumber : List Char → Prop where
  | whole {ds : List Char} (hds : IsDigits ds) (hne : ds ≠ []) : IsNumber ds
  | pointed {ds fs : List Char} (hds : IsDigits ds) (hfs : IsDigits fs) (hne : ds ≠ [] ∨ fs ≠ []) :
      IsNumber (ds ++ '.' :: fs)

/-- The units. The sign for micro is U+00B5 or the Greek letter U+03BC. -/
def units : List (List Char) :=
  [['n', 's'], ['u', 's'], ['\u00b5', 's'], ['\u03bc', 's'], ['m', 's'], ['s'], ['m'], ['h']]

def IsTerm (cs : List Char) : Prop :=
  ∃ number unit, IsNumber number ∧ unit ∈ units ∧ cs = number ++ unit

/-- Whether a text is made up of terms, at least one of them. -/
def IsSum (cs : List Char) : Prop := ∃ terms ≠ [], (∀ t ∈ terms, IsTerm t) ∧ cs = terms.flatten

def isMark (c : Char) : Bool := c.isDigit || c = '.' || units.flatten.contains c

theorem units_eq : units = Scale.spellings.map (·.1) := rfl

variable {cs number unit rest whole fraction : List Char}

theorem IsDigits.isDecimal {ds : List Char} (hds : IsDigits ds) : ∀ d ∈ ds, Text.isDecimal d :=
  fun d hd => Text.isDecimal_of_isDigit (hds d hd)

theorem readNumber?_append (hnumber : IsNumber number)
    (hrest : ∀ c ∈ rest.head?, Text.isDecimal c = false ∧ c ≠ '.') :
    ∃ whole fraction, Component.readNumber? (number ++ rest) = some (whole, fraction, rest) ∧
      IsDigits whole ∧ IsDigits fraction := by
  have hdecimal : ∀ c ∈ rest.head?, Text.isDecimal c = false := fun c hc => (hrest c hc).1
  cases hnumber with
  | whole hds hne =>
    refine ⟨number, [], ?_, hds, by simp [IsDigits]⟩
    unfold Component.readNumber?
    rw [Text.takeWhile_append_eq hds.isDecimal hdecimal,
      Text.dropWhile_append_eq hds.isDecimal hdecimal]
    split
    · exact absurd rfl (hrest '.' rfl).2
    · simp [hne]
  | @pointed ds fs hds hfs hne =>
    have hpoint : ∀ c ∈ ('.' :: (fs ++ rest)).head?, Text.isDecimal c = false := by
      simp [show Text.isDecimal '.' = false by decide]
    have hnone : ¬ (ds.isEmpty = true ∧ fs.isEmpty = true) := by
      simpa [Classical.or_iff_not_imp_left] using hne
    refine ⟨ds, fs, ?_, hds, hfs⟩
    unfold Component.readNumber?
    rw [List.append_assoc, List.cons_append, Text.takeWhile_append_eq hds.isDecimal hpoint,
      Text.dropWhile_append_eq hds.isDecimal hpoint]
    simp only [Text.takeWhile_append_eq hfs.isDecimal hdecimal,
      Text.dropWhile_append_eq hfs.isDecimal hdecimal, if_neg hnone]

theorem exists_of_readNumber? (h : Component.readNumber? cs = some (whole, fraction, rest))
    (hwhole : IsDigits whole) (hfraction : IsDigits fraction) :
    ∃ number, IsNumber number ∧ cs = number ++ rest := by
  have hsplit := List.takeWhile_append_dropWhile (p := Text.isDecimal) (l := cs)
  simp only [Component.readNumber?] at h
  split at h
  · rename_i tail htail
    have hsplit' := List.takeWhile_append_dropWhile (p := Text.isDecimal) (l := tail)
    split at h
    · cases h
    · rename_i hne
      cases h
      refine ⟨_, .pointed hwhole hfraction ?_, ?_⟩
      · simpa [Classical.or_iff_not_imp_left] using hne
      · rw [List.append_assoc, List.cons_append, hsplit', ← htail, hsplit]
  · split at h
    · cases h
    · rename_i hne
      cases h
      exact ⟨_, .whole hwhole (by simpa using hne), hsplit.symm⟩

/-- The first spelling that fits is the whole unit, unless an `s` follows. -/
theorem scaleRead?_append (hunit : unit ∈ units) (hrest : rest.head? ≠ some 's') :
    ∃ scale, Scale.read? (unit ++ rest) = some (scale, rest) := by
  simp only [units, List.mem_cons, List.not_mem_nil, or_false] at hunit
  rcases hunit with rfl | rfl | rfl | rfl | rfl | rfl | rfl | rfl
  all_goals
    cases rest with
    | nil => exact ⟨_, rfl⟩
    | cons c rest =>
      have hc : 's' ≠ c := fun hc => hrest (congrArg some hc.symm)
      simp [Scale.read?, Scale.spellings, hc]

theorem exists_of_scaleRead? {scale : Scale} (h : Scale.read? cs = some (scale, rest)) :
    ∃ unit ∈ units, cs = unit ++ rest := by
  obtain ⟨s, hs, hread⟩ := List.exists_of_findSome?_eq_some h
  split at hread
  · rename_i hprefix
    obtain ⟨tail, rfl⟩ := List.isPrefixOf_iff_prefix.mp hprefix
    cases hread
    exact ⟨s.1, units_eq ▸ List.mem_map_of_mem hs, by simp⟩
  · cases hread

theorem head?_unit (hunit : unit ∈ units) (rest : List Char) :
    ∀ c ∈ (unit ++ rest).head?, Text.isDecimal c = false ∧ c ≠ '.' := by
  simp only [units, List.mem_cons, List.not_mem_nil, or_false] at hunit
  rcases hunit with rfl | rfl | rfl | rfl | rfl | rfl | rfl | rfl <;> simp <;> decide

theorem isReadable_iff {c : Component} :
    c.isReadable = true ↔ IsDigits c.whole ∧ IsDigits c.fraction := by
  rw [Component.isReadable, Bool.and_eq_true, List.all_eq_true, List.all_eq_true]
  rfl

theorem read?_append {term : List Char} (hterm : IsTerm term) (hrest : rest.head? ≠ some 's') :
    ∃ c, Component.read? (term ++ rest) = some (c, rest) ∧ c.isReadable = true := by
  obtain ⟨number, unit, hnumber, hunit, rfl⟩ := hterm
  obtain ⟨whole, fraction, hread, hdigits⟩ :=
    readNumber?_append hnumber (head?_unit hunit rest)
  obtain ⟨scale, hscale⟩ := scaleRead?_append hunit hrest
  refine ⟨⟨whole, fraction, scale⟩, ?_, isReadable_iff.mpr hdigits⟩
  simp only [Component.read?, List.append_assoc, hread, hscale, Option.bind_eq_bind,
    Option.bind_some]

theorem exists_of_read? {c : Component} (h : Component.read? cs = some (c, rest))
    (hreadable : c.isReadable = true) : ∃ term, IsTerm term ∧ cs = term ++ rest := by
  simp only [Component.read?, Option.bind_eq_bind, Option.bind_eq_some_iff, Option.some.injEq,
    Prod.mk.injEq] at h
  obtain ⟨⟨whole, fraction, tail⟩, hread, ⟨scale, _⟩, hscale, rfl, rfl⟩ := h
  obtain ⟨hwhole, hfraction⟩ := isReadable_iff.mp hreadable
  obtain ⟨number, hnumber, rfl⟩ := exists_of_readNumber? hread hwhole hfraction
  obtain ⟨unit, hunit, rfl⟩ := exists_of_scaleRead? hscale
  exact ⟨number ++ unit, ⟨number, unit, hnumber, hunit, rfl⟩, (List.append_assoc ..).symm⟩

theorem IsTerm.exists_cons {term : List Char} (hterm : IsTerm term) :
    ∃ c tail, term = c :: tail ∧ (c.isDigit = true ∨ c = '.') := by
  obtain ⟨number, unit, hnumber, -, rfl⟩ := hterm
  cases hnumber with
  | whole hds hne =>
    obtain ⟨d, ds, rfl⟩ := List.exists_cons_of_ne_nil hne
    exact ⟨d, ds ++ unit, rfl, .inl (hds d List.mem_cons_self)⟩
  | @pointed ds fs hds hfs hne =>
    cases ds with
    | nil => exact ⟨'.', fs ++ unit, rfl, .inr rfl⟩
    | cons d ds => exact ⟨d, _, rfl, .inl (hds d List.mem_cons_self)⟩

theorem head?_flatten_ne {terms : List (List Char)} (hterms : ∀ t ∈ terms, IsTerm t) :
    terms.flatten.head? ≠ some 's' := by
  cases terms with
  | nil => simp
  | cons t terms =>
    obtain ⟨c, tail, rfl, hc⟩ := (hterms t List.mem_cons_self).exists_cons
    rintro ⟨⟩
    revert hc
    decide

/-- The reader reads terms one after the other, whatever it has read before. -/
theorem exists_sumComponents_iff (raw : String) (sum : Number.Magnitude) :
    (∃ total, sumComponents raw sum cs = .ok total) ↔
      ∃ terms : List (List Char), (∀ t ∈ terms, IsTerm t) ∧ cs = terms.flatten := by
  constructor
  · rintro ⟨total, h⟩
    fun_induction sumComponents raw sum cs with
    | case1 sum cs hread hempty => exact ⟨[], by simp, List.isEmpty_iff.mp hempty⟩
    | case2 => cases h
    | case3 sum cs c rest hread hreadable ih =>
      obtain ⟨term, hterm, rfl⟩ := exists_of_read? hread hreadable
      obtain ⟨terms, hterms, rfl⟩ := ih h
      exact ⟨term :: terms, List.forall_mem_cons.mpr ⟨hterm, hterms⟩, rfl⟩
    | case4 => cases h
  · rintro ⟨terms, hterms, rfl⟩
    induction terms generalizing sum with
    | nil => exact ⟨sum, by rw [sumComponents]; rfl⟩
    | cons term terms ih =>
      obtain ⟨hterm, hterms⟩ := List.forall_mem_cons.mp hterms
      obtain ⟨c, hread, hreadable⟩ := read?_append hterm (head?_flatten_ne hterms)
      obtain ⟨total, htotal⟩ := ih (sum.add c.value) hterms
      refine ⟨total, ?_⟩
      rw [List.flatten_cons, sumComponents]
      split
      · rename_i hnone
        cases hnone.symm.trans hread
      · rename_i hsome
        cases hsome.symm.trans hread
        rw [if_pos hreadable, htotal]

theorem IsSum.ne_nil (h : IsSum cs) : cs ≠ [] := by
  obtain ⟨terms, hne, hterms, rfl⟩ := h
  obtain ⟨t, terms, rfl⟩ := List.exists_cons_of_ne_nil hne
  obtain ⟨c, tail, rfl, -⟩ := (hterms t List.mem_cons_self).exists_cons
  simp

theorem isSum_iff (hne : cs ≠ []) :
    IsSum cs ↔ ∃ terms : List (List Char), (∀ t ∈ terms, IsTerm t) ∧ cs = terms.flatten := by
  constructor
  · rintro ⟨terms, -, hterms, hcs⟩
    exact ⟨terms, hterms, hcs⟩
  · rintro ⟨terms, hterms, rfl⟩
    refine ⟨terms, ?_, hterms, rfl⟩
    rintro rfl
    exact hne rfl

theorem exists_parse_iff_trim {raw : String} : (∃ n, parse raw = .ok n) ↔
    Text.trim raw.toList = ['0'] ∨ IsSum (Text.trim raw.toList) := by
  unfold parse
  generalize Text.trim raw.toList = text
  by_cases hempty : text = []
  · subst hempty
    have hsum : ¬ IsSum [] := fun h => h.ne_nil rfl
    simp [hsum]
  · by_cases hzero : text = ['0']
    · simp [hzero]
    · simp only [List.isEmpty_iff, hempty, hzero, if_false, false_or, isSum_iff hempty,
        ← exists_sumComponents_iff raw (.finite 0)]
      cases sumComponents raw (.finite 0) text <;> simp [Except.map]

theorem IsSum.isMark (h : IsSum cs) : ∀ c ∈ cs, isMark c := by
  obtain ⟨terms, -, hterms, rfl⟩ := h
  intro c hc
  obtain ⟨term, hterm, hc⟩ := List.mem_flatten.mp hc
  obtain ⟨number, unit, hnumber, hunit, rfl⟩ := hterms term hterm
  simp only [Duration.isMark, Bool.or_eq_true, decide_eq_true_eq, List.contains_iff_mem]
  rcases List.mem_append.mp hc with hc | hc
  · cases hnumber with
    | whole hds hne => exact .inl (.inl (hds c hc))
    | pointed hds hfs hne =>
      rcases List.mem_append.mp hc with hc | hc
      · exact .inl (.inl (hds c hc))
      · rcases List.mem_cons.mp hc with rfl | hc
        · exact .inl (.inr rfl)
        · exact .inl (.inl (hfs c hc))
  · exact .inr (List.mem_flatten.mpr ⟨unit, hunit, hc⟩)

theorem isBlank_of_isMark {c : Char} (h : isMark c = true) : Text.isBlank c = false := by
  simp only [isMark, Bool.or_eq_true, decide_eq_true_eq] at h
  rcases h with (hdigit | rfl) | hletter
  · simp only [Char.isDigit, Bool.and_eq_true, decide_eq_true_eq] at hdigit
    have hlow : 48 ≤ c.toNat := hdigit.1
    have hhigh : c.toNat ≤ 57 := hdigit.2
    simp only [Text.isBlank, Bool.or_eq_false_iff, Bool.and_eq_false_iff, decide_eq_false_iff_not]
    omega
  · decide
  · have hall : units.flatten.all (fun c => !Text.isBlank c) = true := by decide
    simpa using List.all_eq_true.mp hall c (List.contains_iff_mem.mp hletter)

/-- A text is read as a duration exactly if it is `0` or a sum, blanks at both ends apart. So every
character between these blanks is a digit of ASCII, a point or a letter of a unit. -/
theorem accepted_iff_grammar (raw : String) :
    ((∃ nanos, parse raw = .ok nanos) ↔ ∃ before body after,
      raw.toList = before ++ body ++ after ∧ (∀ c ∈ before, Text.isBlank c) ∧
        (∀ c ∈ after, Text.isBlank c) ∧ (body = ['0'] ∨ IsSum body)) ∧
    ((∃ nanos, parse raw = .ok nanos) → ∀ c ∈ Text.trim raw.toList, isMark c) := by
  have hmark {body : List Char} (hbody : body = ['0'] ∨ IsSum body) : ∀ c ∈ body, isMark c := by
    rcases hbody with rfl | hsum
    · intro c hc
      cases List.mem_singleton.mp hc
      rfl
    · exact hsum.isMark
  rw [exists_parse_iff_trim]
  refine ⟨⟨fun h => ?_, ?_⟩, hmark⟩
  · obtain ⟨before, after, hraw, hbefore, hafter⟩ := Text.exists_eq_append_trim raw.toList
    exact ⟨before, _, after, hraw, hbefore, hafter, h⟩
  · rintro ⟨before, body, after, hraw, hbefore, hafter, hbody⟩
    have htrim : Text.trim raw.toList = body := by
      rw [hraw]
      exact Text.trim_append hbefore (fun c hc => isBlank_of_isMark (hmark hbody c hc)) hafter
    rwa [htrim]

end CertKeeper.Duration
