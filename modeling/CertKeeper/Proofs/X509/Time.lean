import CertKeeper.X509.Certificate

/-!
# How late a certificate can expire

A year is written with four digits at most, so every time in a certificate comes before the end of
ten thousand years of 366 days.
-/

namespace CertKeeper

namespace Time

theorem toDays_le {d : Date} (hyear : 0 ≤ d.year) (hday : d.day ≤ 31) :
    d.toDays ≤ 366 * d.year := by
  have hmonth : (((d.month + 9) % 12 : Nat) : Int) ≤ 11 := by omega
  have hdays (y : Int) (hy : y ≤ d.year) :
      y / 400 * 146097 + (y % 400 * 365 + y % 400 / 4 - y % 400 / 100)
        ≤ 366 * d.year + 146097 := by
    omega
  have hmarch : (if d.month ≤ 2 then d.year - 1 else d.year) ≤ d.year := by split <;> omega
  unfold Date.toDays
  -- Each part is named, since all the divisions at once are too much for one call of `omega`.
  generalize (((d.month + 9) % 12 : Nat) : Int) = monthFromMarch at hmonth ⊢
  have hdayOfYear : (153 * monthFromMarch + 2) / 5 + d.day - 1 ≤ 367 := by omega
  generalize (153 * monthFromMarch + 2) / 5 + d.day - 1 = dayOfYear at hdayOfYear ⊢
  generalize (if d.month ≤ 2 then d.year - 1 else d.year) = y at hmarch ⊢
  have hy := hdays y hmarch
  simp only
  generalize y % 400 * 365 + y % 400 / 4 - y % 400 / 100 = dayOfEra at hy ⊢
  generalize y / 400 * 146097 = era at hy ⊢
  omega

theorem timestamp_lt {d : Date} {hour minute second : Nat} (hyear : 0 ≤ d.year) (hday : d.day ≤ 31)
    (hhour : hour ≤ 23) (hminute : minute ≤ 59) (hsecond : second ≤ 59) :
    timestamp d hour minute second < (366 * d.year + 1) * 86400 := by
  have hdays := toDays_le hyear hday
  unfold timestamp
  omega

end Time

namespace X509

namespace Time

def bound : Int := 10000 * 366 * 86400

variable {b rest : Bytes} {t : Int}

theorem pair?_le {x y : UInt8} {n : Nat} (h : pair? x y = some n) : n ≤ 99 := by
  unfold pair? at h
  split at h
  · rename_i hdigits
    obtain ⟨-, hx, -, hy⟩ := hdigits
    cases h
    have hx : x.toNat ≤ 57 := hx
    have hy : y.toNat ≤ 57 := hy
    omega
  · cases h

theorem readPair?_le {n : Nat} (h : readPair? b = some (n, rest)) : n ≤ 99 := by
  unfold readPair? at h
  split at h
  · obtain ⟨n, hn, heq⟩ := Option.map_eq_some_iff.mp h
    cases heq
    exact pair?_le hn
  · cases h

theorem inYear?_lt {f : Fields} (hread : Fields.read? b = some (f, rest)) {year : Int}
    (hyear : 0 ≤ year) (h : f.inYear? year = some t) : t < (366 * year + 1) * 86400 := by
  simp only [Fields.read?, Option.bind_eq_bind, Option.bind_eq_some_iff] at hread
  obtain ⟨⟨month, _⟩, -, ⟨day, _⟩, -, ⟨hour, _⟩, -, ⟨minute, _⟩, -, ⟨second, _⟩, -, hread⟩ := hread
  split at hread
  · cases hread
  · rename_i hbounds
    cases hread
    simp only [Fields.inYear?] at h
    split at h
    · cases h
      exact CertKeeper.Time.timestamp_lt hyear (by simp; omega) (by omega) (by omega) (by omega)
    · cases h

theorem le_offset? {offset : Int} (h : offset? b = some offset) : -(26 * 3600) ≤ offset := by
  unfold offset? at h
  split at h
  · cases h
    decide
  · simp only [Option.bind_eq_bind, Option.bind_eq_some_iff] at h
    obtain ⟨hours, -, minutes, -, h⟩ := h
    split at h
    · cases h
    · rename_i hbounds
      split at h
      · cases h
        omega
      · split at h
        · split at h <;> cases h <;> omega
        · cases h
  · cases h

theorem shortYear?_lt (h : shortYear? b = some t) : t < bound := by
  simp only [shortYear?, Option.bind_eq_bind, Option.bind_eq_some_iff, Option.some.injEq] at h
  obtain ⟨⟨year, _⟩, hyear, ⟨f, _⟩, hf, offset, hoffset, written, hwritten, rfl⟩ := h
  have hle := readPair?_le hyear
  have hfull : 0 ≤ fullYear year ∧ fullYear year ≤ 2049 := by
    unfold fullYear
    split <;> omega
  have hlt := inYear?_lt hf hfull.1 hwritten
  have hge := le_offset? hoffset
  unfold bound
  omega

theorem fullYear?_lt (h : fullYear? b = some t) : t < bound := by
  simp only [fullYear?, Option.bind_eq_bind, Option.bind_eq_some_iff] at h
  obtain ⟨⟨century, _⟩, hcentury, ⟨year, _⟩, hyear, ⟨f, _⟩, hf, zone, -, h⟩ := h
  have hcentury := readPair?_le hcentury
  have hyear := readPair?_le hyear
  split at h
  · have hlt := inYear?_lt hf (by omega) h
    unfold bound
    omega
  · cases h

theorem read?_lt (h : read? b = some (t, rest)) : t < bound := by
  simp only [read?, Option.bind_eq_bind, Option.bind_eq_some_iff] at h
  obtain ⟨⟨e, tail⟩, -, h⟩ := h
  split at h
  · obtain ⟨t, ht, heq⟩ := Option.bind_eq_some_iff.mp h
    cases heq
    exact shortYear?_lt ht
  · split at h
    · obtain ⟨t, ht, heq⟩ := Option.bind_eq_some_iff.mp h
      cases heq
      exact fullYear?_lt ht
    · cases h

end Time

theorem readValidity?_lt {b rest : Bytes} {notBefore notAfter : Int}
    (h : Certificate.readValidity? b = some ((notBefore, notAfter), rest)) :
    notAfter < Time.bound := by
  simp only [Certificate.readValidity?, Option.bind_eq_bind, Option.bind_eq_some_iff] at h
  obtain ⟨⟨content, _⟩, -, ⟨_, content⟩, -, ⟨_, _⟩, hread, heq⟩ := h
  cases heq
  exact Time.read?_lt hread

theorem Certificate.notAfter_lt {der : Bytes} {c : Certificate}
    (h : Certificate.read? der = some c) : c.notAfter < Time.bound := by
  simp only [Certificate.read?, Option.bind_eq_bind, Option.bind_eq_some_iff] at h
  obtain ⟨⟨content, _⟩, -, ⟨body, content⟩, -, ⟨version, body⟩, -, ⟨serial, body⟩, -, ⟨_, body⟩, -,
    ⟨issuer, body⟩, -, ⟨⟨notBefore, notAfter⟩, body⟩, hvalidity, h⟩ := h
  obtain ⟨⟨subject, body⟩, -, ⟨keyAlgorithm, body⟩, -, body, -, body, -, extensions, -,
    ⟨signatureAlgorithm, content⟩, -, _, -, heq⟩ := h
  cases heq
  exact readValidity?_lt hvalidity

end X509
end CertKeeper
