import Kryptik.Lib.Fallible
import Kryptik.Kryptikd.Zone

namespace Kryptik.Kryptikd

open Lib.Text Lib.Fallible Zone

variable {zones : List Zone}

section Fields

variable {kv : Settings} {name : String} {network : NetworkMode} {storage : StorageMode}

lemma checkIoMax_ok (h : checkIoMax kv name storage = .ok ())
    (hs : (kv.lookup "limits.io_max").isSome) : storage = .encrypted := by
  unfold checkIoMax at h
  split at h
  · next hn => simp [hn] at hs
  · split_ifs at h with h1 h2
    exact not_not.mp h2

/-- The size of an ephemeral zone is one that `parseSize` reads, and it fits in the memory. -/
def SizeFits (size memoryMax : Option String) : Prop :=
  ∃ v n, size = some v ∧ parseSize v = some n ∧
    ∀ m, memoryMax = some m → ∃ mm, parseSize m = some mm ∧ n ≤ mm

lemma checkMemoryMax_ok (h : checkMemoryMax kv = .ok ()) {m : String}
    (hm : kv.lookup "limits.memory_max" = some m) : ∃ mm, parseSize m = some mm := by
  simp only [checkMemoryMax, hm] at h
  split_ifs at h with hp
  exact Option.ne_none_iff_exists'.mp (by simpa using hp)

lemma checkSize_ok (hm : checkMemoryMax kv = .ok ()) (h : checkSize kv name .ephemeral = .ok ()) :
    SizeFits (kv.lookup "storage.size") (kv.lookup "limits.memory_max") := by
  unfold checkSize at h
  dsimp only at h
  split at h
  · cases h
  next v hv =>
    split at h
    · cases h
    next n hn =>
      refine ⟨v, n, hv, hn, ?_⟩
      intro m hmm
      obtain ⟨mm, hp⟩ := checkMemoryMax_ok hm hmm
      refine ⟨mm, hp, ?_⟩
      simp only [hmm, hp] at h
      split_ifs at h with hlt
      exact Nat.le_of_not_lt hlt

lemma readUidBase_ok {b : ℕ} (h : readUidBase kv = .ok (some b)) :
    identityMin ≤ b ∧ identityStride ∣ b ∧ b + 65535 < 2 ^ 32 := by
  unfold readUidBase at h
  split at h
  · cases h
  · split at h
    · cases h
    next n hn =>
      split_ifs at h with hc
      cases h
      push Not at hc
      have := hc.2.2
      simp only [identityStride, u32Max] at this
      omega

lemma readNic_ok {n : String} (h : readNic kv name network = .ok (some n)) :
    network = .nic := by
  unfold readNic at h
  split at h
  · cases h
  · split_ifs at h with h1 h2
    exact not_not.mp h2

lemma readLocal_ok (h : readLocal kv name network = .ok true) : network = .routed := by
  unfold readLocal at h
  split at h
  · cases h
  · split_ifs at h with h1 h2 h3
    · exact not_not.mp h1
    · cases h

lemma readSwitch_nic {key : String} {absent b : Bool} {refusal : Invalid}
    (h : readSwitch kv .nic key absent refusal = .ok b) (ha : absent = false) : b = false := by
  unfold readSwitch at h
  split at h
  · cases h
    exact ha
  · split_ifs at h with h1 h2 h3
    · cases h
      rfl
    · exact absurd rfl h3

lemma readTransferMax_ok {n : ℕ} (h : readTransferMax kv = .ok (some n)) :
    1 ≤ n ∧ n ≤ transferCap := by
  unfold readTransferMax at h
  split at h
  · cases h
  · split at h
    · next hf =>
      cases h
      have := (Option.filter_eq_some_iff.mp hf).2
      simp only [Bool.and_eq_true, decide_eq_true_eq] at this
      exact this.1
    · cases h

lemma transferTarget_ok {v : String} {out out' : List String} {n : List Char}
    (h : transferTarget name v out n = .ok out') :
    String.ofList n ≠ name ∧ out' = out ++ [String.ofList n] := by
  unfold transferTarget at h
  split_ifs at h with h1 h2 h3
  cases h
  exact ⟨h2, rfl⟩

lemma readTransferTo_ok {out : List String} (h : readTransferTo kv name = .ok out) :
    name ∉ out := by
  unfold readTransferTo at h
  split at h
  · cases h
    exact List.not_mem_nil
  next v hv =>
    obtain ⟨l, hl, h⟩ := bind_ok.mp h
    split_ifs at h with he
    cases h
    refine foldlM_ok (P := fun l => name ∉ l) ?_ List.not_mem_nil hl
    intro n _ c c' hc hstep
    obtain ⟨hne, rfl⟩ := transferTarget_ok hstep
    simp [hc, Ne.symm hne]

end Fields

lemma nameChar_iff {c : Char} :
    nameChar c = true ↔ ('a' ≤ c ∧ c ≤ 'z') ∨ ('0' ≤ c ∧ c ≤ '9') ∨ c = '-' := by
  simp [nameChar, isAsciiLowercase, isAsciiDigit, or_assoc]

lemma nameChar_size {c : Char} (h : nameChar c = true) : c.utf8Size = 1 := by
  have hle : c.val ≤ 127 := by
    obtain ⟨-, h⟩ | ⟨-, h⟩ | rfl := nameChar_iff.mp h
    · exact UInt32.le_trans h (by decide)
    · exact UInt32.le_trans h (by decide)
    · decide
  simp [Char.utf8Size, hle]

def lowered (s : String) : String := String.ofList (s.toList.map toAsciiLowercase)

lemma lowered_lowered (s : String) : lowered (lowered s) = lowered s := by
  simp [lowered, Function.comp_def, toAsciiLowercase_idem]

namespace Zone

variable {z : Zone}

structure Sound (z : Zone) : Prop where
  name_length : 1 ≤ z.name.length ∧ z.name.length ≤ 12
  name_chars : ∀ c ∈ z.name.toList, ('a' ≤ c ∧ c ≤ 'z') ∨ ('0' ≤ c ∧ c ≤ '9') ∨ c = '-'
  nic_switches : z.network = .nic →
    z.sound = false ∧ z.removable = false ∧ z.camera = false ∧ z.holdAwake = false
  nic_mode : z.nic.isSome → z.network = .nic
  local_mode : z.localNets = true → z.network = .routed
  size_fits : z.storage = .ephemeral → SizeFits z.size z.memoryMax
  io_mode : z.ioMax.isSome → z.storage = .encrypted
  volume : z.storage = .encrypted → z.volume.isSome
  transfer_max : ∀ n, z.transferMax = some n → 1 ≤ n ∧ n ≤ transferCap
  uid_base : ∀ b, z.uidBase = some b →
    identityMin ≤ b ∧ identityStride ∣ b ∧ b + 65535 < 2 ^ 32
  not_to_itself : z.name ∉ z.transferTo
  colour_lowered : lowered z.borderColor = z.borderColor

/-- The settings a zone was read from, and what each of its fields was read with. -/
structure ReadFrom (kv : Settings) (z : Zone) : Prop where
  known : ∀ e ∈ kv, e.1 ∈ knownKeys
  name : kv.lookup "zone.name" = some z.name
  network : ∃ v, kv.lookup "network.mode" = some v ∧ NetworkMode.parse v = .ok z.network
  storage : ∃ v, kv.lookup "storage.mode" = some v ∧ StorageMode.parse v = .ok z.storage
  memory : checkMemoryMax kv = .ok ()
  io : checkIoMax kv z.name z.storage = .ok ()
  size : checkSize kv z.name z.storage = .ok ()
  uid : readUidBase kv = .ok z.uidBase
  nic : readNic kv z.name z.network = .ok z.nic
  localNets : readLocal kv z.name z.network = .ok z.localNets
  sound : readSound kv z.name z.network = .ok z.sound
  removable : readRemovable kv z.name z.network = .ok z.removable
  camera : readCamera kv z.name z.network = .ok z.camera
  awake : readHoldAwake kv z.name z.network = .ok z.holdAwake
  targets : readTransferTo kv z.name = .ok z.transferTo
  most : readTransferMax kv = .ok z.transferMax
  size_eq : z.size = kv.lookup "storage.size"
  memory_eq : z.memoryMax = kv.lookup "limits.memory_max"
  io_eq : z.ioMax = kv.lookup "limits.io_max"
  colour : ∃ v, kv.lookup "ui.border_color" = some v ∧ z.borderColor = lowered v
  pattern : z.borderPattern = kv.lookup "ui.border_pattern"
  glyph : z.glyph = kv.lookup "ui.glyph"
  label : z.label = kv.lookup "ui.label"
  valid : z.validate = .ok ()

lemma checkKnown_ok {kv : Settings} (h : checkKnown kv = .ok ()) : ∀ e ∈ kv, e.1 ∈ knownKeys := by
  unfold checkKnown at h
  split at h
  · cases h
  next hfind =>
    intro e he
    have := List.find?_eq_none.mp hfind e he
    simpa using this

lemma need_ok {kv : Settings} {key v : String} (h : need kv key = .ok v) : kv.lookup key = some v := by
  unfold need at h
  split at h
  next hv =>
    cases h
    exact hv
  · cases h

lemma fromStr_ok {text : String} (h : fromStr text = .ok z) :
    ∃ kv, parseFlatToml text = .ok kv ∧ z.ReadFrom kv := by
  obtain ⟨kv, hkv, h⟩ := bind_ok.mp h
  obtain ⟨⟨⟩, hknown, h⟩ := bind_ok.mp h
  obtain ⟨name, hname, h⟩ := bind_ok.mp h
  obtain ⟨network, hnetwork, h⟩ := bind_ok.mp h
  obtain ⟨storage, hstorage, h⟩ := bind_ok.mp h
  obtain ⟨pidsMax, -, h⟩ := bind_ok.mp h
  obtain ⟨⟨⟩, hmem, h⟩ := bind_ok.mp h
  obtain ⟨-, -, h⟩ := bind_ok.mp h
  obtain ⟨⟨⟩, hio, h⟩ := bind_ok.mp h
  obtain ⟨⟨⟩, hsize, h⟩ := bind_ok.mp h
  obtain ⟨uidBase, huid, h⟩ := bind_ok.mp h
  obtain ⟨nic, hnic, h⟩ := bind_ok.mp h
  obtain ⟨localNets, hlocal, h⟩ := bind_ok.mp h
  obtain ⟨sound, hsound, h⟩ := bind_ok.mp h
  obtain ⟨removable, hremovable, h⟩ := bind_ok.mp h
  obtain ⟨camera, hcamera, h⟩ := bind_ok.mp h
  obtain ⟨holdAwake, hawake, h⟩ := bind_ok.mp h
  obtain ⟨transferTo, hto, h⟩ := bind_ok.mp h
  obtain ⟨transferMax, hmax, h⟩ := bind_ok.mp h
  obtain ⟨images, -, h⟩ := bind_ok.mp h
  obtain ⟨colour, hcolour, h⟩ := bind_ok.mp h
  obtain ⟨⟨⟩, hvalid, h⟩ := bind_ok.mp h
  obtain rfl := pure_ok.mp h
  obtain ⟨mode, hmode, hnetwork⟩ := bind_ok.mp hnetwork
  obtain ⟨kept, hkept, hstorage⟩ := bind_ok.mp hstorage
  exact ⟨kv, hkv, checkKnown_ok hknown, need_ok hname, ⟨mode, need_ok hmode, hnetwork⟩,
    ⟨kept, need_ok hkept, hstorage⟩, hmem, hio, hsize, huid, hnic, hlocal, hsound, hremovable, hcamera,
    hawake, hto, hmax, rfl, rfl, rfl, ⟨colour, need_ok hcolour, rfl⟩, rfl, rfl, rfl, hvalid⟩

lemma validate_ok (h : z.validate = .ok ()) :
    z.name.toList ≠ [] ∧ (∀ c ∈ z.name.toList, nameChar c = true) ∧ byteLen z.name.toList ≤ 12 ∧
      (z.storage = .encrypted → z.volume.isSome) := by
  unfold validate at h
  split_ifs at h with h1 h2 h3 h4
  refine ⟨by simpa using h1, by simpa using h2, Nat.le_of_not_lt h3, ?_⟩
  intro hs
  exact Option.isSome_iff_ne_none.mpr (by simpa using not_and.mp h4 hs)

lemma ReadFrom.toSound {kv : Settings} (h : z.ReadFrom kv) : z.Sound := by
  obtain ⟨hne, hchars, hlen, hvolume⟩ := validate_ok h.valid
  rw [byteLen_eq_length (fun c hc => nameChar_size (hchars c hc))] at hlen
  have hpos : 0 < z.name.toList.length := List.length_pos_iff.mpr hne
  refine
    { name_length := ⟨hpos, hlen⟩
      name_chars := fun c hc => nameChar_iff.mp (hchars c hc)
      nic_switches := ?_
      nic_mode := ?_
      local_mode := fun hl => readLocal_ok (hl ▸ h.localNets)
      size_fits := ?_
      io_mode := fun hio => checkIoMax_ok h.io (h.io_eq ▸ hio)
      volume := hvolume
      transfer_max := fun n hn => readTransferMax_ok (hn ▸ h.most)
      uid_base := fun b hb => readUidBase_ok (hb ▸ h.uid)
      not_to_itself := readTransferTo_ok h.targets
      colour_lowered := ?_ }
  · intro hn
    have hs := h.sound
    have hr := h.removable
    have hc := h.camera
    have ha := h.awake
    rw [hn] at hs hr hc ha
    exact ⟨readSwitch_nic hs rfl, readSwitch_nic hr rfl, readSwitch_nic hc rfl, readSwitch_nic ha rfl⟩
  · intro hn
    obtain ⟨n, hn⟩ := Option.isSome_iff_exists.mp hn
    exact readNic_ok (hn ▸ h.nic)
  · intro hs
    rw [h.size_eq, h.memory_eq]
    exact checkSize_ok h.memory (hs ▸ h.size)
  · obtain ⟨colour, -, hc⟩ := h.colour
    rw [hc, lowered_lowered]

lemma Sound.hostNumber_eq (h : z.Sound) {i : ℕ} (hi : z.hostNumber = some i) :
    2 ≤ i ∧ i ≤ 249 ∧ z.uidBase = some (i * identityStride) := by
  obtain ⟨b, hb, hi⟩ := Option.bind_eq_some_iff.mp hi
  obtain ⟨hmin, ⟨q, rfl⟩, -⟩ := h.uid_base b hb
  have hq : (identityStride * q - identityMin) / identityStride + 2 = q := by
    unfold identityMin identityStride at hmin ⊢
    omega
  simp only [hq] at hi
  split_ifs at hi with hk
  have hlt : q % 256 = q := by omega
  have hge : 2 ≤ q := Nat.le_trans (Nat.le_add_left 2 _) hq.le
  rw [hlt] at hi
  cases hi
  refine ⟨hge, by omega, ?_⟩
  rw [hb, Nat.mul_comm]

end Zone

lemma checkTarget_ok {z : Zone} {d : String} (h : checkTarget zones z d = .ok ()) :
    ∃ o ∈ zones, o.name = d ∧ o.network ≠ .nic := by
  unfold checkTarget byName at h
  split at h
  · cases h
  next o ho =>
    split_ifs at h with hn
    exact ⟨o, List.mem_of_find?_eq_some ho, by simpa using List.find?_some ho, hn⟩

lemma checkTargets_ok (h : checkTargets zones = .ok ()) :
    ∀ z ∈ zones, ∀ d ∈ z.transferTo, ∃ o ∈ zones, o.name = d ∧ o.network ≠ .nic := by
  intro z hz d hd
  exact checkTarget_ok (forM_ok (forM_ok h z hz) d hd)

lemma checkNic_ok (h : checkNic zones = .ok ()) :
    (nicZones zones).length ≤ 1 ∧
      ((∃ z ∈ zones, z.network = .routed) → (nicZones zones).length = 1) := by
  unfold checkNic at h
  split at h
  · next hl => exact ⟨hl.le, fun _ => hl⟩
  · split_ifs at h with hr
    refine ⟨by omega, ?_⟩
    rintro ⟨z, hz, hn⟩
    exact absurd (List.any_eq_true.mpr ⟨z, hz, by simpa using hn⟩) hr
  · cases h

lemma checkDistinct_ok {κ : Type} [DecidableEq κ] {key : Zone → Option κ} {refusal : Zone → Zone → κ → Invalid}
    {seen : List Zone} (h : checkDistinct key refusal seen zones = .ok ()) :
    (∀ z ∈ zones, ∀ o ∈ seen, ∀ k, key o = some k → key z ≠ some k) ∧
      zones.Pairwise (fun a b => ∀ k, key a = some k → key b ≠ some k) := by
  induction zones generalizing seen with
  | nil => exact ⟨fun z hz => absurd hz List.not_mem_nil, List.Pairwise.nil⟩
  | cons z zones ih =>
    unfold checkDistinct at h
    split at h
    · next hk =>
      obtain ⟨hseen, hpairs⟩ := ih h
      refine ⟨?_, List.Pairwise.cons (fun b _ k ha => by simp [hk] at ha) hpairs⟩
      rintro a (_ | ⟨_, ha⟩) o ho k hok
      · simp [hk]
      · exact hseen a ha o ho k hok
    · next k hk =>
      split at h
      · cases h
      next hf =>
        obtain ⟨hseen, hpairs⟩ := ih h
        have hz : ∀ b ∈ zones, ∀ j, key z = some j → key b ≠ some j :=
          fun b hb => hseen b hb z (by simp)
        refine ⟨?_, List.Pairwise.cons hz hpairs⟩
        rintro a (_ | ⟨_, ha⟩) o ho j hoj
        · intro hzj
          obtain rfl : k = j := Option.some.inj (hk.symm.trans hzj)
          have := List.find?_eq_none.mp hf o ho
          simp [hoj] at this
        · exact hseen a ha o (by simp [ho]) j hoj

/-- What a set of zone files guarantees once it is accepted. -/
structure Guarantees (zones : List Zone) : Prop where
  sound : ∀ z ∈ zones, z.Sound
  names : zones.Pairwise (fun a b => a.name ≠ b.name)
  colours : zones.Pairwise (fun a b => lowered a.borderColor ≠ lowered b.borderColor)
  ranges : zones.Pairwise (fun a b => ∀ x y, a.uidBase = some x → b.uidBase = some y →
    x + 65535 < y ∨ y + 65535 < x)
  one_nic : (nicZones zones).length ≤ 1
  routed_nic : (∃ z ∈ zones, z.network = .routed) → (nicZones zones).length = 1
  targets : ∀ z ∈ zones, ∀ d ∈ z.transferTo, ∃ o ∈ zones, o.name = d ∧ o ≠ z ∧ o.network ≠ .nic
  hosts : ∀ z ∈ zones, ∀ i, z.hostNumber = some i → 2 ≤ i ∧ i ≤ 249
  hosts_distinct : zones.Pairwise (fun a b => ∀ i, a.hostNumber = some i → b.hostNumber ≠ some i)

theorem accepted_guarantees {texts : List String} {zones : List Zone}
    (hread : texts.mapM fromStr = .ok zones) (hcheck : checkInvariants zones = .ok ()) :
    Guarantees zones := by
  have hsound : ∀ z ∈ zones, z.Sound := by
    intro z hz
    obtain ⟨text, -, ht⟩ := mapM_ok hread z hz
    obtain ⟨kv, -, h⟩ := fromStr_ok ht
    exact h.toSound
  obtain ⟨⟨⟩, htargets, hcheck⟩ := bind_ok.mp hcheck
  obtain ⟨⟨⟩, hnic, hcheck⟩ := bind_ok.mp hcheck
  obtain ⟨⟨⟩, hnames, hcheck⟩ := bind_ok.mp hcheck
  obtain ⟨⟨⟩, hbases, hcolours⟩ := bind_ok.mp hcheck
  have hbase := (checkDistinct_ok hbases).2
  refine
    { sound := hsound
      names := (checkDistinct_ok hnames).2.imp (fun h he => h _ rfl (congrArg some he.symm))
      colours := ?_
      ranges := ?_
      one_nic := (checkNic_ok hnic).1
      routed_nic := (checkNic_ok hnic).2
      targets := ?_
      hosts := ?_
      hosts_distinct := ?_ }
  · refine (checkDistinct_ok hcolours).2.imp_of_mem ?_
    intro a b ha hb h he
    rw [(hsound a ha).colour_lowered, (hsound b hb).colour_lowered] at he
    exact h _ rfl (congrArg some he.symm)
  · refine hbase.imp_of_mem ?_
    intro a b ha hb h x y hx hy
    -- Different multiples of the stride are a whole range apart.
    obtain ⟨-, ⟨p, rfl⟩, -⟩ := (hsound a ha).uid_base x hx
    obtain ⟨-, ⟨q, rfl⟩, -⟩ := (hsound b hb).uid_base y hy
    have hne : p ≠ q := fun he => h _ hx (he ▸ hy)
    simp only [identityStride]
    omega
  · intro z hz d hd
    obtain ⟨o, ho, hname, hnet⟩ := checkTargets_ok htargets z hz d hd
    refine ⟨o, ho, hname, ?_, hnet⟩
    rintro rfl
    exact (hsound o ho).not_to_itself (hname ▸ hd)
  · intro z hz i hi
    obtain ⟨h2, h249, -⟩ := (hsound z hz).hostNumber_eq hi
    exact ⟨h2, h249⟩
  · refine hbase.imp_of_mem ?_
    intro a b ha hb h i hi hj
    exact h _ ((hsound a ha).hostNumber_eq hi).2.2 ((hsound b hb).hostNumber_eq hj).2.2

def netText : String :=
  "[zone]\nname=\"net\"\n[network]\nmode=\"nic\"\n[storage]\nmode=\"ephemeral\"\nsize=\"1M\"\n" ++
  "[identity]\nuid_base=131072\n[ui]\nborder_color=\"#A03030\"\n"

def workText : String :=
  "[zone]\nname=\"work\"\n[network]\nmode=\"routed\"\n[storage]\nmode=\"persistent\"\n" ++
  "[identity]\nuid_base=\"+196608\"\n[ui]\nborder_color=\"#3030a0\"\n"

theorem accepted_guarantees_routed :
    ∃ zones, [netText, workText].mapM fromStr = .ok zones ∧ checkInvariants zones = .ok () ∧
      zones.map hostNumber = [some 2, some 3] ∧ Guarantees zones := by
  have h : ([netText, workText].mapM fromStr).toOption.any (fun zones =>
      checkInvariants zones = .ok () ∧ zones.map hostNumber = [some 2, some 3]) = true := by
    decide +kernel
  obtain ⟨zones, hread, h⟩ := (Option.any_eq_true _ _).mp h
  obtain ⟨hcheck, hhosts⟩ := of_decide_eq_true h
  have hread := toOption_eq_some.mp hread
  exact ⟨zones, hread, hcheck, hhosts, accepted_guarantees hread hcheck⟩

end Kryptik.Kryptikd
