import Kryptik.Net.RoutedZones

namespace Kryptik.Net

open Lib Lib.Text Lib.Fallible Kryptikd List Option

/-- What `awk` has seen `kryptikd` has read. -/
structure Seen (s : Awk) (out : Settings) : Prop where
  claims : s.claims = true → ∃ e ∈ out, KeyOf "local" e.1 ∧ unblank e.2.toList = "true".toList
  routed : s.routed = true → ∃ e ∈ out, KeyOf "mode" e.1 ∧ unblank e.2.toList = "routed".toList
  base : s.base ≠ [] → (∀ d ∈ s.base, isAsciiDigit d = true) ∧
    ∃ e ∈ out, KeyOf "uid_base" e.1 ∧ (unblank e.2.toList = s.base ∨ '#' ∈ e.2.toList)

variable {s : Awk} {st st' : TomlState} {raw record : List Char} {lineno : ℕ} {out out' : Settings}

lemma Seen.mono (h : Seen s out) (hout : ∀ e ∈ out, e ∈ out') : Seen s out' := by
  refine ⟨fun hc => ?_, fun hr => ?_, fun hb => ?_⟩
  · obtain ⟨e, he, hfacts⟩ := h.claims hc
    exact ⟨e, hout e he, hfacts⟩
  · obtain ⟨e, he, hfacts⟩ := h.routed hr
    exact ⟨e, hout e he, hfacts⟩
  · obtain ⟨hdigits, e, he, hfacts⟩ := h.base hb
    exact ⟨hdigits, e, hout e he, hfacts⟩

lemma isUidBase_plain {line : List Char} (h : isUidBase line = true) : '\r' ∉ line := by
  obtain ⟨o, ds, c, ho, hc, rfl, -, hds⟩ := isUidBase_ok h
  intro hin
  have hdigit : '\r' ∉ ds := fun h => absurd (hds _ h) (by decide)
  obtain rfl | rfl := ho <;> obtain rfl | rfl := hc <;> simp [hdigit] at hin

section Rules

variable (hline : Lined lineno raw st st') (hstrip : '\r' ∉ stripped record → stripped raw = stripped record)

include hline hstrip

lemma Seen.claimRule (h : Seen s st'.out) : Seen (claimRule (stripped record) s) st'.out := by
  unfold Net.claimRule
  split_ifs with hrule
  · refine ⟨fun _ => ?_, h.routed, h.base⟩
    obtain ⟨-, hrecord | hrecord⟩ := hrule
    · have hsame := hstrip (by rw [hrecord]; decide)
      rw [hrecord] at hsame
      exact bare_entry hline hsame (by decide)
        (all_eq_true.mp (by decide : "true".toList.all isAsciiAlphanumeric = true)) (by decide)
    · have hsame := hstrip (by rw [hrecord]; decide)
      rw [hrecord] at hsame
      exact quoted_entry hline hsame (by decide) (by decide) (by decide)
  · exact h

lemma Seen.modeRule (h : Seen s st'.out) : Seen (modeRule (stripped record) s) st'.out := by
  unfold Net.modeRule
  split_ifs with hrule
  · refine ⟨h.claims, fun _ => ?_, h.base⟩
    obtain ⟨-, hrecord⟩ := hrule
    have hsame := hstrip (by rw [hrecord]; decide)
    rw [hrecord] at hsame
    exact quoted_entry hline hsame (by decide) (by decide) (by decide)
  · exact h

lemma Seen.baseRule (h : Seen s st'.out) : Seen (baseRule (stripped record) s) st'.out := by
  unfold Net.baseRule
  split_ifs with hrule
  · refine ⟨h.claims, h.routed, fun _ => ⟨?_, ?_⟩⟩
    · intro d hd
      exact (mem_filter.mp hd).2
    · have hsame := hstrip (isUidBase_plain hrule.2)
      rw [← hsame]
      exact uid_entry hline (by rw [hsame]; exact hrule.2)
  · exact h

lemma Seen.step (h : Seen s st.out) : Seen (awkRecord s record) st'.out := by
  have hkept := h.mono (hline.mem)
  unfold awkRecord
  dsimp only
  split_ifs
  · exact ⟨hkept.claims, hkept.routed, hkept.base⟩
  · exact ((hkept.claimRule hline hstrip).modeRule hline hstrip).baseRule hline hstrip

end Rules

lemma forall₂_records (text : List Char) :
    List.Forall₂ (fun record raw => '\r' ∉ stripped record → stripped raw = stripped record) (records text)
      (lines text) := by
  apply rel_append
  · rw [forall₂_map_right_iff, forall₂_same]
    exact fun _ _ => stripped_stripCr
  · rw [forall₂_same]
    exact fun _ _ _ => rfl

lemma Seen.run {recs ls : List (List Char)}
    (hrel : List.Forall₂ (fun record raw => '\r' ∉ stripped record → stripped raw = stripped record) recs ls) {n : ℕ}
    (h : Seen s st.out) (hfold : (ls.zipIdx n).foldlM tomlLine st = .ok st') : Seen (recs.foldl awkRecord s) st'.out := by
  induction hrel generalizing s st n with
  | nil =>
    obtain rfl := pure_ok.mp hfold
    exact h
  | cons hstrip _ ih =>
    obtain ⟨st1, hline, hfold⟩ := bind_ok.mp hfold
    exact ih (h.step (tomlLine_ok hline) hstrip) hfold

lemma seen_text {text : String} {kv : Settings} (h : parseFlatToml text = .ok kv) :
    Seen ((records text.toList).foldl awkRecord {}) kv := by
  obtain ⟨st, hfold, h⟩ := bind_ok.mp h
  obtain rfl := pure_ok.mp h
  have hstart : Seen {} (⟨[], []⟩ : TomlState).out :=
    ⟨fun h => absurd h (by simp), fun h => absurd h (by simp), fun h => absurd rfl h⟩
  exact hstart.run (forall₂_records text.toList) hfold

def keysOf (k : String) : List String :=
  knownKeys.filter (fun f => f.toList = k.toList || ('.' :: k.toList).isSuffixOf f.toList)

lemma known_keyOf {k full : String} (hknown : full ∈ knownKeys) (hkey : KeyOf k full) : full ∈ keysOf k := by
  have hall : knownKeys.all (fun f => unblank f.toList = f.toList) = true := by decide +kernel
  have hplain : unblank full.toList = full.toList := by simpa using all_eq_true.mp hall full hknown
  obtain ⟨sectionName, key, hfull, hk⟩ := hkey
  refine mem_filter.mpr ⟨hknown, ?_⟩
  rw [← hplain, hfull, fullKey, String.toList_ofList, Bool.or_eq_true, decide_eq_true_eq, isSuffixOf_iff_suffix]
  split_ifs
  · exact .inl hk
  · refine .inr ⟨unblank sectionName, ?_⟩
    have hdot : unblank ('.' :: key) = '.' :: unblank key := by simp [unblank, isBlank]
    rw [unblank_append, hdot, hk]

lemma parseUnsigned_digits {max n : ℕ} {cs : List Char} (h : parseUnsigned max cs = some n) :
    ∃ ds, (cs = ds ∨ cs = '+' :: ds) ∧ (∀ c ∈ ds, isAsciiDigit c = true) ∧ decimal ds = some n := by
  obtain ⟨hdec, -⟩ := Option.filter_eq_some_iff.mp h
  have hdigits : ∀ ds, decimal ds = some n → ∀ c ∈ ds, isAsciiDigit c = true := by
    intro ds hds
    unfold decimal at hds
    split_ifs at hds with hbad
    simp only [Bool.or_eq_true, not_or, Bool.not_eq_true', Bool.not_eq_false, List.all_eq_true] at hbad
    exact hbad.2
  split at hdec
  · exact ⟨_, .inr rfl, hdigits _ hdec, hdec⟩
  · exact ⟨_, .inl rfl, hdigits _ hdec, hdec⟩

section Settled

variable {kv : Settings} {z : Zone}

lemma lookup_keyOf (hz : z.Settled kv) {e : String × String} (he : e ∈ kv) {k : String} (hkey : KeyOf k e.1) :
    ∃ full ∈ keysOf k, kv.lookup full = some e.2 :=
  ⟨e.1, known_keyOf (hz.known e he) hkey, hz.single e he⟩

lemma Seen.network (h : Seen s kv) (hz : z.Settled kv) (hrouted : s.routed = true) : z.network = .routed := by
  obtain ⟨e, he, hkey, hv⟩ := h.routed hrouted
  obtain ⟨full, hfull, hlookup⟩ := lookup_keyOf hz he hkey
  have hkeys : keysOf "mode" = ["network.mode", "storage.mode"] := by decide +kernel
  rw [hkeys] at hfull
  obtain rfl | rfl := mem_pair.mp hfull
  · obtain ⟨v, hread, hparse⟩ := hz.network
    rw [hread] at hlookup
    cases hlookup
    unfold NetworkMode.parse at hparse
    split_ifs at hparse with h1 h2 h3
    · cases h1 ▸ hv
    · exact (Except.ok.inj hparse).symm
    · cases h3 ▸ hv
  · obtain ⟨v, hread, hparse⟩ := hz.storage
    rw [hread] at hlookup
    cases hlookup
    unfold StorageMode.parse at hparse
    split_ifs at hparse with h1 h2 h3
    · cases h1 ▸ hv
    · cases h2 ▸ hv
    · cases h3 ▸ hv

lemma Seen.localNets (h : Seen s kv) (hz : z.Settled kv) (hclaims : s.claims = true) : z.localNets = true := by
  obtain ⟨e, he, hkey, hv⟩ := h.claims hclaims
  obtain ⟨full, hfull, hlookup⟩ := lookup_keyOf hz he hkey
  have hkeys : keysOf "local" = ["network.local"] := by decide +kernel
  rw [hkeys, mem_singleton] at hfull
  subst hfull
  have hread := hz.localNets
  simp only [readLocal, hlookup] at hread
  split_ifs at hread with h1 h2 h3
  · exact (Except.ok.inj hread).symm
  · cases h3 ▸ hv

lemma Seen.uidBase (h : Seen s kv) (hz : z.Settled kv) (hbase : s.base ≠ []) :
    ∃ n, decimal s.base = some n ∧ z.uidBase = some n := by
  obtain ⟨hdigits, e, he, hkey, hv⟩ := h.base hbase
  obtain ⟨full, hfull, hlookup⟩ := lookup_keyOf hz he hkey
  have hkeys : keysOf "uid_base" = ["identity.uid_base"] := by decide +kernel
  rw [hkeys, mem_singleton] at hfull
  subst hfull
  have hread := hz.uid
  simp only [readUidBase, hlookup] at hread
  split at hread
  · cases hread
  next n hparse =>
    split_ifs at hread
    refine ⟨n, ?_, (Except.ok.inj hread).symm⟩
    obtain ⟨ds, hds, hall, hdec⟩ := parseUnsigned_digits hparse
    have hself : unblank ds = ds := unblank_eq_self fun c hc => isAsciiAlphanumeric_of_digit (hall c hc)
    obtain hds | hds := hds
    · obtain hv | hhash := hv
      · rw [hds, hself] at hv
        rw [← hv]
        exact hdec
      · rw [hds] at hhash
        exact absurd (hall '#' hhash) (by decide)
    · obtain hv | hhash := hv
      · have hplus : '+' ∈ s.base := by
          rw [← hv, hds]
          exact mem_unblank.mpr ⟨mem_cons_self, by decide⟩
        exact absurd (hdigits '+' hplus) (by decide)
      · rw [hds] at hhash
        obtain hhash | hhash := mem_cons.mp hhash
        · cases hhash
        · cases hall '#' hhash

end Settled

lemma int_natCast (m : ℕ) : int (m : ℚ) = m := by
  simp [int]

lemma host_eq {z : Zone} {n : ℕ} (huid : z.uidBase = some n) (hmin : identityMin ≤ n) (hdvd : identityStride ∣ n) :
    ∃ m : ℕ, ((n : ℚ) - 131072) / 65536 + 2 = m ∧ (m < 250 → z.hostNumber = some m) := by
  obtain ⟨m, rfl⟩ := hdvd
  have hdiv : (identityStride * m - identityMin) / identityStride + 2 = m := by
    simp only [identityMin, identityStride] at hmin ⊢
    omega
  refine ⟨m, ?_, ?_⟩
  · simp only [identityStride]
    push_cast
    ring
  · intro hlt
    refine bind_eq_some_iff.mpr ⟨identityStride * m, huid, ?_⟩
    rw [hdiv, if_neg (by omega), Nat.mod_eq_of_lt (by omega)]

/-- What the firewall reads in a zone file that `kryptikd` accepts is so: the zone is routed, it has that host
number, and it claims the local networks only if its definition does. -/
theorem routedZones_sound {text : String} {z : Zone} (hz : Zone.fromStr text = .ok z) {k : ℤ} {l : ℕ}
    (h : routedZones text = some (k, l)) :
    z.network = .routed ∧ (∃ i : ℕ, z.hostNumber = some i ∧ k = i) ∧ (l = 1 → z.localNets = true) := by
  obtain ⟨kv, hkv, hsettled⟩ := Zone.fromStr_settled hz
  have hseen := seen_text hkv
  unfold routedZones at h
  generalize (records text.toList).foldl awkRecord {} = s at h hseen
  unfold awkEnd at h
  dsimp only at h
  split_ifs at h with hprints
  obtain ⟨hrouted, hbase, -, -, hhigh⟩ := hprints
  obtain ⟨hk, hl⟩ := Prod.mk.inj (some_inj.mp h)
  obtain ⟨n, hdec, huid⟩ := hseen.uidBase hsettled hbase
  obtain ⟨hmin, hdvd, -⟩ := readUidBase_ok (huid ▸ hsettled.uid)
  obtain ⟨m, hm, hhost⟩ := host_eq huid hmin hdvd
  rw [hdec, getD_some, hm] at hk hhigh
  refine ⟨hseen.network hsettled hrouted, ⟨m, hhost (by exact_mod_cast hhigh), by rw [← hk, int_natCast]⟩, ?_⟩
  intro h1
  apply hseen.localNets hsettled
  cases hclaims : s.claims with
  | true => rfl
  | false =>
    rw [hclaims, h1] at hl
    cases hl

def mailText : String :=
  "[zone]\nname = \"mail\" # the mail\n[network] # out\nmode = \"routed\"\nlocal = true\n[storage]\nmode = " ++
  "\"persistent\"\n[identity]\nuid_base = \"0262144\"\n[ui]\nborder_color = \"#3030a0\"\n"

theorem routedZones_sound_mail : ∃ z, Zone.fromStr mailText = .ok z ∧ routedZones mailText = some (4, 1) ∧
    z.network = .routed ∧ z.hostNumber = some 4 ∧ z.localNets = true := by
  have h : (Zone.fromStr mailText).toOption.isSome = true ∧ routedZones mailText = some (4, 1) := by decide +kernel
  obtain ⟨z, hz⟩ := isSome_iff_exists.mp h.1
  have hz := toOption_eq_some.mp hz
  obtain ⟨hnetwork, ⟨i, hhost, hi⟩, hlocal⟩ := routedZones_sound hz h.2
  have hfour : i = 4 := by omega
  exact ⟨z, hz, h.2, hnetwork, hfour ▸ hhost, hlocal rfl⟩

end Kryptik.Net
