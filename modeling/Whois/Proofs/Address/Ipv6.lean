import Whois.Address.Ipv6
import Whois.Proofs.Address.Ipv4

/-!
IPv6 addresses in writing. An address is read back, whichever of its zero groups are left out, and
nothing is read that has no colon.
-/
namespace Whois.Ipv6

variable {t before after : Text} {c : Char} {gs : List Group} {g : Group} {a : Ipv6}

/-- The characters of addresses of either family. -/
def IsAddressChar (c : Char) : Prop :=
  (Text.hexDigit? c).isSome = true ∨ c = '.' ∨ c = ':'

instance (c : Char) : Decidable (IsAddressChar c) :=
  inferInstanceAs (Decidable (_ ∨ _ ∨ _))

theorem isSome_hexDigit?_of_group? (h : group? t = some g) (hc : c ∈ t) :
    (Text.hexDigit? c).isSome = true := by
  obtain ⟨digits, hdigits, _⟩ := Option.bind_eq_some_iff.mp h
  obtain ⟨d, hd⟩ := exists_of_mapM_eq_some hdigits hc
  rw [hd]
  rfl

theorem isAddressChar_of_ipv4 {a : Ipv4} (h : Ipv4.read? t = some a) (hc : c ∈ t) :
    IsAddressChar c := by
  rcases Ipv4.mem_of_read? h hc with hdigit | hdot
  · exact .inl (Text.hexDigit?_of_isDigit hdigit)
  · exact .inr (.inl hdot)

theorem isAddressChar_of_lastGroups? (h : lastGroups? t = some gs) (hc : c ∈ t) :
    IsAddressChar c := by
  unfold lastGroups? at h
  split at h
  next g hg => exact .inl (isSome_hexDigit?_of_group? hg hc)
  next =>
    obtain ⟨a, ha, _⟩ := Option.map_eq_some_iff.mp h
    exact isAddressChar_of_ipv4 ha hc

theorem isAddressChar_of_parts? {ts : List Text} (h : parts? ts = some gs) (ht : t ∈ ts)
    (hc : c ∈ t) : IsAddressChar c := by
  fun_induction parts? ts generalizing gs with
  | case1 => cases ht
  | case2 last =>
    rw [List.mem_singleton.mp ht] at hc
    exact isAddressChar_of_lastGroups? h hc
  | case3 first rest _ ih =>
    obtain ⟨g, hg, h⟩ := Option.bind_eq_some_iff.mp h
    obtain ⟨gs', hgs', _⟩ := Option.bind_eq_some_iff.mp h
    rcases List.mem_cons.mp ht with rfl | ht
    · exact .inl (isSome_hexDigit?_of_group? hg hc)
    · exact ih hgs' ht

theorem isAddressChar_of_back? (h : back? t = some gs) (hc : c ∈ t) : IsAddressChar c := by
  by_cases hcolon : c = ':'
  · exact .inr (.inr hcolon)
  · obtain ⟨part, hpart, hcpart⟩ := Text.exists_mem_split hc hcolon
    unfold back? at h
    rw [if_neg (by simp [List.ne_nil_of_mem hc])] at h
    exact isAddressChar_of_parts? h hpart hcpart

theorem isAddressChar_of_front? (h : front? t = some gs) (hc : c ∈ t) : IsAddressChar c := by
  by_cases hcolon : c = ':'
  · exact .inr (.inr hcolon)
  · obtain ⟨part, hpart, hcpart⟩ := Text.exists_mem_split hc hcolon
    unfold front? at h
    rw [if_neg (by simp [List.ne_nil_of_mem hc])] at h
    obtain ⟨g, hg⟩ := exists_of_mapM_eq_some h hpart
    exact .inl (isSome_hexDigit?_of_group? hg hcpart)

theorem cutGap?_eq_some (h : cutGap? t = some (before, after)) :
    t = before ++ ':' :: ':' :: after := by
  fun_induction cutGap? t generalizing before with
  | case1 => cases h
  | case2 rest =>
    cases h
    rfl
  | case3 c rest hgap ih =>
    obtain ⟨⟨before', after'⟩, hrest, heq⟩ := Option.map_eq_some_iff.mp h
    cases heq
    rw [ih hrest]
    rfl

theorem isAddressChar_of_read? (h : read? t = some a) (hc : c ∈ t) : IsAddressChar c := by
  unfold read? at h
  split at h
  next =>
    obtain ⟨gs, hgs, _⟩ := Option.bind_eq_some_iff.mp h
    exact isAddressChar_of_back? hgs hc
  next before after hcut =>
    obtain ⟨front, hfront, h⟩ := Option.bind_eq_some_iff.mp h
    obtain ⟨back, hback, _⟩ := Option.bind_eq_some_iff.mp h
    rw [cutGap?_eq_some hcut] at hc
    simp only [List.mem_append, List.mem_cons] at hc
    rcases hc with hc | hc | hc | hc
    · exact isAddressChar_of_front? hfront hc
    · exact .inr (.inr hc)
    · exact .inr (.inr hc)
    · exact isAddressChar_of_back? hback hc

theorem length_of_ofGroups? (h : ofGroups? gs = some a) : gs.length = 8 := by
  unfold ofGroups? at h
  split at h
  next hlength => exact hlength
  next => cases h

theorem length_of_lastGroups? (h : lastGroups? t = some gs) : gs.length ≤ 2 := by
  unfold lastGroups? at h
  split at h
  next g _ =>
    have hgs : [g] = gs := Option.some.inj h
    rw [← hgs, List.length_singleton]
    omega
  next =>
    obtain ⟨a, _, rfl⟩ := Option.map_eq_some_iff.mp h
    exact Nat.le_of_eq (Positional.length_toDigits ..)

/-- Without a colon there are two groups at most. -/
theorem colon_mem_of_read? (h : read? t = some a) : ':' ∈ t := by
  unfold read? at h
  split at h
  next =>
    obtain ⟨gs, hgs, ha⟩ := Option.bind_eq_some_iff.mp h
    by_contra hcolon
    have hlength := length_of_ofGroups? ha
    unfold back? at hgs
    split at hgs
    next =>
      cases hgs
      cases hlength
    next =>
      rw [Text.split_of_not_mem hcolon] at hgs
      have hle := length_of_lastGroups? hgs
      omega
  next before after hcut =>
    rw [cutGap?_eq_some hcut]
    exact List.mem_append_right _ List.mem_cons_self

/-- A gap is not at a character before which there is none. -/
theorem cutGap?_cons (h : c = ':' → t.head? ≠ some ':') :
    cutGap? (c :: t) = (cutGap? t).map fun (before, after) => (c :: before, after) := by
  conv => lhs; unfold cutGap?
  split
  next rest hgap => exact absurd rfl (h rfl)
  next => rfl

theorem cutGap?_append (h : ':' ∉ t) (s : Text) :
    cutGap? (t ++ s) = (cutGap? s).map fun (before, after) => (t ++ before, after) := by
  induction t with
  | nil =>
    rw [List.nil_append]
    exact Option.map_id'.symm
  | cons c rest ih =>
    obtain ⟨hc, hrest⟩ := not_or.mp (mt List.mem_cons.mpr h)
    rw [List.cons_append, cutGap?_cons fun heq => absurd heq.symm hc, ih hrest, Option.map_map]
    rfl

theorem group?_toDigits (g : Group) : group? (Nat.toDigits 16 g.val) = some g := by
  obtain ⟨digits, hdigits, hvalue⟩ := Text.mapM_hexDigit?_toDigits g.val
  have hlength : 1 ≤ digits.length ∧ digits.length ≤ 4 := by
    rw [length_of_mapM_eq_some hdigits]
    exact ⟨Nat.length_toDigits_pos, (Nat.length_toDigits_le_iff (by decide) (by decide)).mpr g.isLt⟩
  unfold group?
  rw [hdigits]
  refine (dif_pos hlength).trans ?_
  congr 1
  exact Fin.ext hvalue

theorem colon_not_mem_toDigits (g : Group) : ':' ∉ Nat.toDigits 16 g.val := by
  intro hcolon
  have hdigit := isSome_hexDigit?_of_group? (group?_toDigits g) hcolon
  exact absurd hdigit (by decide)

theorem toDigits_ne_nil (g : Group) : Nat.toDigits 16 g.val ≠ [] := Nat.toDigits_ne_nil

theorem split_renderGroups (h : gs ≠ []) :
    Text.split ':' (renderGroups gs) = gs.map fun g => Nat.toDigits 16 g.val := by
  apply Text.split_join
  · rwa [ne_eq, List.map_eq_nil_iff]
  · intro part hpart
    obtain ⟨g, _, rfl⟩ := List.mem_map.mp hpart
    exact colon_not_mem_toDigits g

theorem renderGroups_cons (g : Group) (h : gs ≠ []) :
    renderGroups (g :: gs) = Nat.toDigits 16 g.val ++ ':' :: renderGroups gs := by
  have hne : gs.map (fun g => Nat.toDigits 16 g.val) ≠ [] := by rwa [ne_eq, List.map_eq_nil_iff]
  unfold renderGroups
  rw [List.map_cons, Text.join_cons hne, List.append_assoc]
  rfl

theorem renderGroups_singleton (g : Group) : renderGroups [g] = Nat.toDigits 16 g.val :=
  Text.join_singleton _ _

theorem renderGroups_ne_nil (h : gs ≠ []) : renderGroups gs ≠ [] := by
  apply Text.join_ne_nil
  · rwa [ne_eq, List.map_eq_nil_iff]
  · intro part hpart
    obtain ⟨g, _, rfl⟩ := List.mem_map.mp hpart
    exact toDigits_ne_nil g

theorem head?_renderGroups (h : gs ≠ []) : (renderGroups gs).head? ≠ some ':' := by
  obtain ⟨g, rest, rfl⟩ := List.exists_cons_of_ne_nil h
  intro hhead
  have hg : (renderGroups (g :: rest)).head? = (Nat.toDigits 16 g.val).head? :=
    Text.head?_join (toDigits_ne_nil g) _
  rw [hg] at hhead
  exact colon_not_mem_toDigits g (List.mem_of_head? hhead)

/-- There is no gap in groups that are all written. -/
theorem cutGap?_renderGroups (h : gs ≠ []) (s : Text) :
    cutGap? (renderGroups gs ++ s) =
      (cutGap? s).map fun (before, after) => (renderGroups gs ++ before, after) := by
  induction gs with
  | nil => exact absurd rfl h
  | cons g rest ih =>
    by_cases hrest : rest = []
    · rw [hrest, renderGroups_singleton, cutGap?_append (colon_not_mem_toDigits g)]
    · have hhead : (renderGroups rest ++ s).head? ≠ some ':' := by
        obtain ⟨d, text, hrender⟩ := List.exists_cons_of_ne_nil (renderGroups_ne_nil hrest)
        have hrest := head?_renderGroups hrest
        rw [hrender] at hrest ⊢
        exact hrest
      rw [renderGroups_cons g hrest, List.append_assoc,
        cutGap?_append (colon_not_mem_toDigits g), List.cons_append, cutGap?_cons fun _ => hhead,
        ih hrest, Option.map_map, Option.map_map]
      congr 1
      funext parts
      simp

theorem parts?_cons {ts : List Text} (h : ts ≠ []) :
    parts? (t :: ts) = (group? t).bind fun g => (parts? ts).bind fun gs => some (g :: gs) := by
  obtain ⟨t', rest, rfl⟩ := List.exists_cons_of_ne_nil h
  rfl

theorem parts?_map (gs : List Group) :
    parts? (gs.map fun g => Nat.toDigits 16 g.val) = some gs := by
  induction gs with
  | nil => rfl
  | cons g rest ih =>
    cases rest with
    | nil =>
      change lastGroups? (Nat.toDigits 16 g.val) = some [g]
      unfold lastGroups?
      rw [group?_toDigits]
    | cons g' rest =>
      rw [List.map_cons, parts?_cons (by simp), group?_toDigits, ih]
      rfl

theorem back?_renderGroups (gs : List Group) : back? (renderGroups gs) = some gs := by
  by_cases h : gs = []
  · rw [h]
    rfl
  · unfold back?
    rw [if_neg (by simpa using renderGroups_ne_nil h), split_renderGroups h, parts?_map]

theorem front?_renderGroups (gs : List Group) : front? (renderGroups gs) = some gs := by
  by_cases h : gs = []
  · rw [h]
    rfl
  · unfold front?
    rw [if_neg (by simpa using renderGroups_ne_nil h), split_renderGroups h]
    exact mapM_map_eq_some fun g _ => group?_toDigits g

theorem length_groups (a : Ipv6) : a.groups.length = 8 := Positional.length_toDigits ..

theorem groups_ne_nil (a : Ipv6) : a.groups ≠ [] :=
  List.ne_nil_of_length_eq_add_one a.length_groups

theorem ofGroups?_groups (a : Ipv6) : ofGroups? a.groups = some a := by
  unfold ofGroups?
  rw [dif_pos a.length_groups]
  congr 1
  apply Fin.ext
  change Positional.ofDigits (Positional.toDigits 65536 8 a.val) = a.val
  rw [Positional.ofDigits_toDigits]
  exact Nat.mod_eq_of_lt a.isLt

/-- The groups around a run of zeros, with the zeros put back. -/
theorem take_append_zeros_append_drop (gs : List Group) (i : Nat) :
    gs.take i ++ List.replicate (zerosAt gs i) 0 ++ gs.drop (i + zerosAt gs i) = gs := by
  have hzeros : (gs.drop i).takeWhile (· == 0) = List.replicate (zerosAt gs i) 0 := by
    rw [List.eq_replicate_iff]
    refine ⟨rfl, ?_⟩
    intro g hg
    simpa using List.all_eq_true.mp List.all_takeWhile g hg
  have hrest : gs.drop (i + zerosAt gs i) = (gs.drop i).dropWhile (· == 0) := by
    have hsplit : (gs.drop i).takeWhile (· == 0) ++ (gs.drop i).dropWhile (· == 0) = gs.drop i :=
      List.takeWhile_append_dropWhile
    calc gs.drop (i + zerosAt gs i) = (gs.drop i).drop (zerosAt gs i) := List.drop_drop.symm
      _ = ((gs.drop i).takeWhile (· == 0) ++ (gs.drop i).dropWhile (· == 0)).drop
            (zerosAt gs i) := by rw [hsplit]
      _ = (gs.drop i).dropWhile (· == 0) := List.drop_left
  rw [← hzeros, hrest, List.append_assoc, List.takeWhile_append_dropWhile, List.take_append_drop]

/-- Zeros that are left out are as many as are missing from eight groups. -/
theorem read?_gap {front back : List Group} {count : Nat} (hcount : 1 ≤ count)
    (h : ofGroups? (front ++ List.replicate count 0 ++ back) = some a) :
    read? (renderGroups front ++ ':' :: ':' :: renderGroups back) = some a := by
  have hgap : cutGap? (renderGroups front ++ ':' :: ':' :: renderGroups back) =
      some (renderGroups front, renderGroups back) := by
    by_cases hfront : front = []
    · rw [hfront]
      rfl
    · rw [cutGap?_renderGroups hfront]
      simp [cutGap?]
  have hlength := length_of_ofGroups? h
  rw [List.length_append, List.length_append, List.length_replicate] at hlength
  have hgiven : front.length + back.length ≤ 7 := by omega
  have hmissing : 8 - (front.length + back.length) = count := by omega
  unfold read?
  rw [hgap]
  dsimp only
  rw [front?_renderGroups, back?_renderGroups]
  refine (if_pos hgiven).trans ?_
  rw [hmissing, h]

theorem read?_compress (a : Ipv6) : read? (compress a.groups) = some a := by
  unfold compress
  dsimp only
  generalize longestZeros a.groups = i
  split
  next hcount =>
    rw [List.append_assoc]
    apply read?_gap (Nat.le_of_succ_le hcount)
    rw [take_append_zeros_append_drop]
    exact ofGroups?_groups a
  next =>
    have hgap := cutGap?_renderGroups a.groups_ne_nil []
    rw [List.append_nil] at hgap
    unfold read?
    rw [hgap]
    change (back? (renderGroups a.groups)).bind ofGroups? = some a
    rw [back?_renderGroups]
    exact ofGroups?_groups a

theorem lastGroups?_ipv4 (a : Ipv4) :
    lastGroups? a.render = some (Positional.toDigits 65536 2 a.val) := by
  have hgroup : group? a.render = none := by
    cases hgroup : group? a.render with
    | none => rfl
    | some g =>
      have hdigit := isSome_hexDigit?_of_group? hgroup (Ipv4.dot_mem_of_read? a.read?_render)
      exact absurd hdigit (by decide)
  unfold lastGroups?
  rw [hgroup, Ipv4.read?_render]
  rfl

theorem back?_mapped (a : Ipv4) :
    back? ("ffff:" ++ a.render) = some (65535 :: Positional.toDigits 65536 2 a.val) := by
  have hcolon : ':' ∉ a.render := by
    intro hcolon
    rcases Ipv4.mem_of_read? a.read?_render hcolon with hdigit | hdot
    · exact absurd hdigit (by decide)
    · exact absurd hdot (by decide)
  have hsplit : Text.split ':' ("ffff:" ++ a.render) = [("ffff" : Text), a.render] := by
    change Text.split ':' ("ffff" ++ ':' :: a.render) = _
    rw [Text.split_append_cons, Text.split_of_not_mem hcolon]
    rfl
  have hffff : group? "ffff" = some 65535 := by decide
  unfold back?
  rw [hsplit, if_neg (by simp), parts?_cons (by simp), hffff]
  change (lastGroups? a.render).bind _ = _
  rw [lastGroups?_ipv4]
  rfl

/-- The groups of the block that holds the IPv4 addresses. -/
theorem groups_of_mapped? {v4 : Ipv4} (h : a.mapped? = some v4) :
    a.groups = List.replicate 5 0 ++ 65535 :: Positional.toDigits 65536 2 v4.val := by
  unfold mapped? at h
  split at h
  next hmapped =>
    have hv4 : v4.val = a.val % 2 ^ 32 := by
      rw [← Option.some.inj h]
      rfl
    have hhigh : a.val / 65536 ^ 2 = 65535 := hmapped
    unfold groups
    rw [Positional.toDigits_add 65536 6 2, hhigh, hv4, ← Positional.toDigits_mod 65536 2 a.val]
    rfl
  next => cases h

/-- An address is read back from its written form. -/
theorem read?_render (a : Ipv6) : read? a.render = some a := by
  unfold render
  cases hmapped : a.mapped? with
  | none => exact read?_compress a
  | some v4 =>
    have hgap : cutGap? ("::ffff:" ++ v4.render) = some ([], "ffff:" ++ v4.render) := rfl
    unfold read?
    rw [hgap]
    change (back? ("ffff:" ++ v4.render)).bind _ = some a
    rw [back?_mapped]
    change ofGroups? (List.replicate 5 0 ++ 65535 :: Positional.toDigits 65536 2 v4.val) = some a
    rw [← groups_of_mapped? hmapped]
    exact ofGroups?_groups a

theorem isAddressChar_of_mem_render (h : c ∈ a.render) : IsAddressChar c :=
  isAddressChar_of_read? a.read?_render h

end Whois.Ipv6
