import Mathlib.Tactic.ByContra
import Whois.Address.Ipv4
import Whois.Proofs.Text.Numeral

/-!
IPv4 addresses in writing: an address is read back, and nothing but digits and dots is read.
-/
namespace Whois.Ipv4

variable {t : Text} {c : Char}

theorem isDigit_of_octet? {octet : Fin 256} (h : octet? t = some octet) (hc : c ∈ t) :
    c.isDigit = true := by
  unfold octet? at h
  split at h
  next => exact Text.isDigit_of_natural? (Text.natural?_of_below? h) hc
  next => cases h

theorem mem_of_read? {a : Ipv4} (h : read? t = some a) (hc : c ∈ t) :
    c.isDigit = true ∨ c = '.' := by
  obtain ⟨octets, hoctets, _⟩ := Option.bind_eq_some_iff.mp h
  by_cases hdot : c = '.'
  · exact .inr hdot
  · obtain ⟨part, hpart, hcpart⟩ := Text.exists_mem_split hc hdot
    obtain ⟨octet, hoctet⟩ := exists_of_mapM_eq_some hoctets hpart
    exact .inl (isDigit_of_octet? hoctet hcpart)

theorem length_of_ofOctets? {octets : List (Fin 256)} {a : Ipv4} (h : ofOctets? octets = some a) :
    octets.length = 4 := by
  unfold ofOctets? at h
  split at h
  next hlength => exact hlength
  next => cases h

theorem dot_mem_of_read? {a : Ipv4} (h : read? t = some a) : '.' ∈ t := by
  obtain ⟨octets, hoctets, ha⟩ := Option.bind_eq_some_iff.mp h
  by_contra hdot
  rw [Text.split_of_not_mem hdot] at hoctets
  have hone := length_of_mapM_eq_some hoctets
  have hfour := length_of_ofOctets? ha
  rw [hfour, List.length_singleton] at hone
  omega

theorem octet?_decimal : ∀ octet : Fin 256, octet? (Text.decimal octet.val) = some octet := by
  decide +kernel

theorem ofOctets?_octets (a : Ipv4) : ofOctets? a.octets = some a := by
  have hlength : a.octets.length = 4 := Positional.length_toDigits ..
  unfold ofOctets?
  rw [dif_pos hlength]
  congr 1
  apply Fin.ext
  change Positional.ofDigits (Positional.toDigits 256 4 a.val) = a.val
  rw [Positional.ofDigits_toDigits]
  exact Nat.mod_eq_of_lt a.isLt

/-- An address is read back from its written form. -/
theorem read?_render (a : Ipv4) : read? a.render = some a := by
  have hne : a.octets.map (fun octet => Text.decimal octet.val) ≠ [] := by
    rw [ne_eq, List.map_eq_nil_iff, ← List.length_eq_zero_iff]
    change ¬ (Positional.toDigits 256 4 a.val).length = 0
    rw [Positional.length_toDigits]
    decide
  have hdots : ∀ part ∈ a.octets.map fun octet => Text.decimal octet.val, '.' ∉ part := by
    intro part hpart hdot
    obtain ⟨octet, _, rfl⟩ := List.mem_map.mp hpart
    have hdigit := Text.isDigit_of_mem_decimal hdot
    exact absurd hdigit (by decide)
  have hsplit : Text.split '.' a.render = a.octets.map fun octet => Text.decimal octet.val :=
    Text.split_join hne hdots
  unfold read?
  rw [hsplit, mapM_map_eq_some fun octet _ => octet?_decimal octet]
  exact ofOctets?_octets a

end Whois.Ipv4
