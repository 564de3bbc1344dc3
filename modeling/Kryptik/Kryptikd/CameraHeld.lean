import Kryptik.Kryptikd.Camera

namespace Kryptik.Kryptikd.Camera

open Lib Lib.Prog Lib.Text List Option Function Host

section
variable {g : Grant} {s : List Char} {c : Char}

def isPrintable (c : Char) : Bool := isAsciiGraphic c || c == ' '

/-- What `grant` records. -/
structure Grant.Wellformed (g : Grant) : Prop where
  zone : isZoneName g.zone.toList = true
  node : isNode g.node.toList = true
  name : g.name.toList.all isPrintable = true
  device : isDevpath g.device.toList = true
  seqnum : g.seqnum ≤ 2 ^ 64 - 1

lemma printable_of_graphic (h : isAsciiGraphic c = true) : isPrintable c = true := by
  simp [isPrintable, h]

lemma printable_of_digit (h : isAsciiDigit c = true) : isPrintable c = true :=
  printable_of_graphic (isAsciiGraphic_of_alphanumeric (by simp [isAsciiAlphanumeric, h]))

lemma printable_zone (h : isZoneName s = true) : s.all isPrintable = true := by
  simp only [isZoneName, Bool.and_eq_true, List.all_eq_true, Bool.or_eq_true, beq_iff_eq] at h
  rw [List.all_eq_true]
  intro c hc
  obtain (hc | hc) | hc := h.2 c hc
  · exact printable_of_graphic (isAsciiGraphic_of_alphanumeric (by simp [isAsciiAlphanumeric, hc]))
  · exact printable_of_digit hc
  · subst hc
    decide

lemma printable_node (h : isNode s = true) : s.all isPrintable = true := by
  unfold isNode at h
  split at h
  · rename_i n hn
    simp only [Bool.and_eq_true] at h
    obtain ⟨p, rfl, hp⟩ := dropPrefix?_eq_some_iff.mp hn
    rw [beq_iff_eq] at hp
    have hall : n.all isPrintable = true := by
      rw [List.all_eq_true]
      intro c hc
      exact printable_of_digit (all_eq_true.mp h.2 c hc)
    rw [all_append, hp, hall]
    decide
  · cases h

lemma printable_device (h : isDevpath s = true) : s.all isPrintable = true := by
  simp only [isDevpath, Bool.and_eq_true, List.all_eq_true] at h
  rw [List.all_eq_true]
  intro c hc
  exact printable_of_graphic (h.1.2 c hc)

lemma line_of_printable (h : s.all isPrintable = true) : '\n' ∉ s ∧ s.getLast? ≠ some '\r' := by
  rw [List.all_eq_true] at h
  refine ⟨fun hc => ?_, fun hlast => ?_⟩
  · cases h _ hc
  · cases h _ (List.mem_of_getLast? hlast)

lemma recordLines_printable (h : g.Wellformed) : ∀ l ∈ g.recordLines, l.all isPrintable = true := by
  have hseqnum : (Nat.toDigits 10 g.seqnum).all isPrintable = true := by
    rw [List.all_eq_true]
    exact fun c hc => printable_of_digit (isAsciiDigit_toDigits _ c hc)
  simp only [Grant.recordLines, forall_mem_cons, all_append, printable_zone h.zone,
    printable_node h.node, h.name, printable_device h.device, hseqnum, Bool.and_true]
  decide

lemma splitOnce_line {key line : List Char} (value : List Char) (hkey : ' ' ∉ key)
    (hline : line = key ++ ' ' :: value) : splitOnce ' ' line = some (key, value) := by
  rw [hline]
  exact splitOnce_append hkey

lemma parse_render (h : g.Wellformed) : Grant.parse g.render = some g := by
  have hlines : Text.lines g.render = g.recordLines :=
    lines_flatMap fun l hl => line_of_printable (recordLines_printable h l hl)
  have hzone : splitOnce ' ' ("zone ".toList ++ g.zone.toList) = some ("zone".toList, g.zone.toList) :=
    splitOnce_line _ (by decide) rfl
  have hnode : splitOnce ' ' ("node ".toList ++ g.node.toList) = some ("node".toList, g.node.toList) :=
    splitOnce_line _ (by decide) rfl
  have hname : splitOnce ' ' ("name ".toList ++ g.name.toList) = some ("name".toList, g.name.toList) :=
    splitOnce_line _ (by decide) rfl
  have hdevice : splitOnce ' ' ("device ".toList ++ g.device.toList) =
      some ("device".toList, g.device.toList) := splitOnce_line _ (by decide) rfl
  have hseqnum : splitOnce ' ' ("seqnum ".toList ++ Nat.toDigits 10 g.seqnum) =
      some ("seqnum".toList, Nat.toDigits 10 g.seqnum) := splitOnce_line _ (by decide) rfl
  have hnumber := parseUnsigned_toDigits h.seqnum
  rw [Grant.parse, hlines]
  simp only [Grant.recordLines, foldlM_cons, foldlM_nil, Fields.read, hzone, hnode, hname, hdevice,
    hseqnum, h.zone, h.node, h.device, hnumber, and_true, String.ofList_toList, bind, pure]
  simp [Fields.grant]

end

def Host.Bare (h : Host) : Prop := ∀ z, h.nodes z = none

/-- A zone whose directory holds the node is the one the record names. -/
def Host.Sound (h : Host) : Prop := ∀ z, h.nodes z ≠ none → ∃ g, h.holder = some g ∧ g.zone = z

/-- The record names `z` and its node is gone: what an end that failed half-way leaves. -/
def Host.HalfEnded (h : Host) (z : String) : Prop := (∃ g, h.holder = some g ∧ g.zone = z) ∧ h.nodes z = none

section
variable {h : Host} {g : Grant} {zone : String}

lemma Host.Bare.sound (hbare : h.Bare) : h.Sound := fun z hz => absurd (hbare z) hz

lemma Host.Bare.setNone (hbare : h.Bare) (z : String) : (h.setNode z none).Bare := by
  intro y
  by_cases hy : y = z
  · subst hy
    simp [setNode]
  · simpa [setNode, update_of_ne hy] using hbare y

lemma Host.Sound.removed (hsound : h.Sound) (hg : h.holder = some g) : (h.setNode g.zone none).Bare := by
  intro z
  by_cases hz : z = g.zone
  · subst hz
    simp [setNode]
  · simp only [setNode, update_of_ne hz]
    by_contra hne
    obtain ⟨g', hg', rfl⟩ := hsound z hne
    rw [hg] at hg'
    exact hz (congrArg Grant.zone (some_inj.mp hg').symm)

lemma wp_require {Q : Unit → Host → Prop} {E : Fault → Host → Prop} {done : Bool} {fault : Fault}
    (hQ : done = true → Q () h) (hE : E fault h) : wp (require done fault) Q E h := by
  unfold require
  split
  · exact hQ ‹_›
  · exact hE

lemma wp_letGoOf (io : EndIo) :
    wp (letGoOf io) (fun _ h' => h'.nodes = h.nodes ∧ h'.record = h.record)
      (fun _ h' => h'.nodes = h.nodes ∧ h'.record = h.record) h := by
  unfold letGoOf
  split
  · exact ⟨rfl, rfl⟩
  · simp only [wp_bind]
    refine wp_require (fun _ => ?_) ⟨rfl, rfl⟩
    refine wp_ite (fun _ => ?_) (fun _ => ⟨rfl, rfl⟩)
    simp only [wp_bind]
    exact wp_require (fun _ => ⟨rfl, rfl⟩) ⟨rfl, rfl⟩

lemma wp_endGrant (io : EndIo) (hsound : h.Sound) (hg : h.holder = some g) :
    wp (endGrant io g) (fun _ h' => h'.Bare ∧ h'.record = none)
      (fun _ h' => h'.Bare ∧ h'.record = h.record) h := by
  have hbare := hsound.removed hg
  unfold endGrant
  simp only [wp_bind, wp_modify]
  refine wp_mono (wp_letGoOf io) ?_ ?_
  · rintro _ h' ⟨hnodes, hrecord⟩
    have hbare' : h'.Bare := fun z => (congrFun hnodes z).trans (hbare z)
    exact wp_require (fun _ => ⟨hbare', rfl⟩) ⟨hbare', hrecord⟩
  · rintro _ h' ⟨hnodes, hrecord⟩
    exact ⟨fun z => (congrFun hnodes z).trans (hbare z), hrecord⟩

lemma mem_of_lowest {l : List (ℕ × String)} {x : ℕ × String} (hx : lowest l = some x) : x ∈ l := by
  have hmem := mem_of_mem_head? hx
  rwa [mem_mergeSort] at hmem

lemma printable_cameraName (text : Option (List Char)) : (cameraName text).all isPrintable = true := by
  have htrim : ∀ l : List Char, l.all isPrintable = true → (trim l).all isPrintable = true := by
    intro l hl
    rw [List.all_eq_true] at hl ⊢
    intro c hc
    have hend := (dropWhile_suffix _).subset (mem_reverse.mp hc)
    exact hl c ((dropWhile_suffix _).subset (mem_reverse.mp hend))
  have hcut : ((((text.getD []).filter (fun c => isAsciiGraphic c || c == ' ')).take 48)).all isPrintable = true := by
    rw [List.all_eq_true]
    intro c hc
    exact (mem_filter.mp (mem_of_mem_take hc)).2
  unfold cameraName
  simp only
  split
  · decide
  · exact htrim _ hcut

lemma cameraIn_some {sys : VideoClass} {found : Found} (hfound : cameraIn sys = some found) :
    isNode found.node.toList = true ∧ found.name.toList.all isPrintable = true := by
  obtain ⟨⟨num, node⟩, hlow, hfound⟩ := bind_eq_some_iff.mp hfound
  obtain ⟨dev, -, hfound⟩ := bind_eq_some_iff.mp hfound
  obtain ⟨⟨major, minor⟩, -, hfound⟩ := bind_eq_some_iff.mp hfound
  obtain ⟨ma, -, hfound⟩ := bind_eq_some_iff.mp hfound
  obtain ⟨mi, -, hfound⟩ := bind_eq_some_iff.mp hfound
  cases hfound
  refine ⟨?_, ?_⟩
  · obtain ⟨⟨n, index⟩, -, hn⟩ := mem_filterMap.mp (mem_of_lowest hlow)
    obtain ⟨k, -, hn⟩ := bind_eq_some_iff.mp hn
    split_ifs at hn with hnode
    cases hn
    exact hnode.1
  · simpa only [String.toList_ofList] using printable_cameraName (sys.name node)

/-- The zone holds the node alone, and the record is that of `g`. -/
def Host.HeldBy (h : Host) (zone : String) (g : Grant) : Prop :=
  g.zone = zone ∧ h.holder = some g ∧ h.nodes zone ≠ none ∧ ∀ z, z ≠ zone → h.nodes z = none

lemma Host.HeldBy.sound (hheld : h.HeldBy zone g) : h.Sound := by
  intro z hz
  refine ⟨g, hheld.2.1, ?_⟩
  by_contra hne
  exact hz (hheld.2.2.2 z fun heq => hne (hheld.1.trans heq.symm))

lemma Host.bare_of_others (hothers : ∀ z, z ≠ zone → h.nodes z = none) : (h.setNode zone none).Bare := by
  intro z
  by_cases hz : z = zone
  · subst hz
    simp [setNode]
  · simpa [setNode, update_of_ne hz] using hothers z hz

lemma wp_makeNode (io : GrantIo) (found : Found) (uid : ℕ) (hbare : h.Bare) :
    wp (makeNode io zone found uid)
      (fun _ h' => h'.nodes zone ≠ none ∧ ∀ z, z ≠ zone → h'.nodes z = none)
      (fun _ h' => h'.Bare) h := by
  unfold makeNode
  simp only [wp_bind, wp_modify]
  have hclear := hbare.setNone zone
  refine wp_require (fun _ => ?_) hclear
  refine wp_ite (fun _ => ?_) (fun _ => ?_)
  · refine ⟨by simp [setNode], ?_⟩
    intro z hz
    simpa [setNode, update_of_ne hz] using hbare z
  · apply bare_of_others
    intro z hz
    simpa [setNode, update_of_ne hz] using hbare z

lemma wp_recordGrant (io : GrantIo) (found : Found) (hnode : isNode found.node.toList = true)
    (hname : found.name.toList.all isPrintable = true) (hzone : isZoneName zone.toList = true)
    (hpath : ∀ d, io.devpath = some d → isDevpath d.toList = true)
    (hmade : h.nodes zone ≠ none ∧ ∀ z, z ≠ zone → h.nodes z = none) :
    wp (recordGrant io zone found) (fun g h' => h'.HeldBy zone g) (fun _ h' => h'.Bare) h := by
  have hback := bare_of_others hmade.2
  unfold recordGrant
  split
  · rename_i device seqnum hdevice hseqnum
    obtain ⟨text, -, hparsed⟩ := bind_eq_some_iff.mp hseqnum
    have hwell : Grant.Wellformed
        { zone, node := found.node, name := found.name, device, seqnum } :=
      ⟨hzone, hnode, hname, hpath device hdevice, of_decide_eq_true (filter_eq_some_iff.mp hparsed).2⟩
    refine wp_ite (fun _ => ?_) (fun _ => ?_)
    · exact ⟨rfl, parse_render hwell, hmade⟩
    · exact hback
  · exact hback

lemma wp_grantAnew (io : GrantIo) (uid : ℕ) (hzone : isZoneName zone.toList = true)
    (hpath : ∀ d, io.devpath = some d → isDevpath d.toList = true) (hbare : h.Bare) :
    wp (grantAnew io zone uid) (fun g h' => h'.HeldBy zone g) (fun _ h' => h'.Bare) h := by
  unfold grantAnew zoneDir
  simp only [wp_bind, wp_modify, wp_get]
  refine wp_require (fun _ => ?_) hbare
  have hdir : (if h.holder.all (fun g => g.zone != zone) then h.setNode zone none else h).Bare := by
    split
    · exact hbare.setNone zone
    · exact hbare
  refine wp_require (fun _ => ?_) hdir
  refine wp_require (fun _ => ?_) hdir
  split
  · exact hdir
  · rename_i found hfound
    obtain ⟨sys, -, hin⟩ := exists_of_findSome?_eq_some hfound
    obtain ⟨hnode, hname⟩ := cameraIn_some hin
    simp only [wp_bind]
    refine wp_mono (wp_makeNode io found uid hdir) ?_ (fun _ _ hfailed => hfailed)
    intro _ h2 hmade
    exact wp_recordGrant io found hnode hname hzone hpath hmade

lemma isZoneName_of_sound {z : Zone} (hz : z.Sound) : isZoneName z.name.toList = true := by
  have hsize : ∀ c ∈ z.name.toList, c.utf8Size = 1 := by
    intro c hc
    exact nameChar_size (nameChar_iff.mpr (hz.name_chars c hc))
  have hlen : z.name.toList.length = z.name.length := String.length_toList
  have hne : z.name.toList ≠ [] := by
    intro hnil
    rw [hnil, length_nil] at hlen
    have := hz.name_length.1
    omega
  have hbytes : byteLen z.name.toList ≤ 12 := by
    rw [byteLen_eq_length hsize]
    exact hz.name_length.2
  have hall : z.name.toList.all (fun c => isAsciiLowercase c || isAsciiDigit c || c == '-') = true := by
    rw [List.all_eq_true]
    intro c hc
    obtain hc | hc | hc := hz.name_chars c hc
    · simp [isAsciiLowercase, hc.1, hc.2]
    · simp [isAsciiDigit, hc.1, hc.2]
    · simp [hc]
  simp [isZoneName, hne, hbytes, hall]

lemma not_halfEnded (hother : ∀ g, h.holder = some g → g.zone ≠ zone) : ¬ h.HalfEnded zone := by
  rintro ⟨⟨g, hg, hz⟩, -⟩
  exact hother g hg hz

lemma wp_grant (io : GrantIo) {z : Zone} (hz : z.Sound)
    (hpath : ∀ d, io.devpath = some d → isDevpath d.toList = true) (hsound : h.Sound) :
    wp (grant io z)
      (fun g h' => h'.Sound ∧ h'.holder = some g ∧ g.zone = z.name ∧
        (h'.nodes z.name ≠ none ↔ ¬ h.HalfEnded z.name))
      (fun _ h' => h'.Sound) h := by
  have hname := isZoneName_of_sound hz
  have hanew : ∀ h1 : Host, h1.Bare → ¬ h.HalfEnded z.name → ∀ uid,
      wp (grantAnew io z.name uid)
        (fun g h' => h'.Sound ∧ h'.holder = some g ∧ g.zone = z.name ∧
          (h'.nodes z.name ≠ none ↔ ¬ h.HalfEnded z.name))
        (fun _ h' => h'.Sound) h1 := by
    intro h1 hbare hhalf uid
    refine wp_mono (wp_grantAnew io uid hname hpath hbare) ?_ (fun _ _ hfailed => hfailed.sound)
    intro g h' hheld
    exact ⟨hheld.sound, hheld.2.1, hheld.1, iff_of_true hheld.2.2.1 hhalf⟩
  unfold grant
  simp only [wp_bind]
  refine wp_require (fun _ => ?_) hsound
  split
  · exact hsound
  simp only [wp_bind, wp_get]
  refine wp_require (fun _ => ?_) hsound
  split
  · rename_i g hg
    refine wp_ite (fun hsame => ?_) (fun hother => ?_)
    · refine ⟨hsound, hg, hsame, ?_⟩
      unfold Host.HalfEnded
      rw [and_iff_right ⟨g, hg, hsame⟩]
    · simp only [wp_bind]
      refine wp_mono (wp_endGrant io.ending hsound hg) ?_ (fun _ _ hfailed => hfailed.1.sound)
      rintro _ h1 ⟨hbare, -⟩
      apply hanew h1 hbare
      apply not_halfEnded
      intro g' hg'
      rw [hg, some_inj] at hg'
      exact hg' ▸ hother
  · rename_i hnone
    have hbare : h.Bare := by
      intro y
      by_contra hy
      obtain ⟨g, hg, -⟩ := hsound y hy
      rw [hnone] at hg
      cases hg
    apply hanew h hbare
    apply not_halfEnded
    intro g hg
    rw [hnone] at hg
    cases hg

lemma wp_endIf (locked : Bool) (io : EndIo) (meant : Grant → Bool) (hsound : h.Sound) :
    wp (endIf locked io meant) (fun _ h' => h'.Sound) (fun _ h' => h'.Sound) h := by
  unfold endIf
  simp only [wp_bind, wp_get]
  refine wp_require (fun _ => ?_) hsound
  split
  · rename_i g hg
    refine wp_ite (fun _ => ?_) (fun _ => hsound)
    simp only [wp_map]
    exact wp_mono (wp_endGrant io hsound hg) (fun _ _ hend => hend.1.sound) (fun _ _ hend => hend.1.sound)
  · exact hsound

end

inductive Call
  | grant (io : GrantIo) (zone : Zone)
  | revoke (locked : Bool) (io : EndIo)
  | revokeFrom (locked : Bool) (io : EndIo) (zone : String)
  | gone (locked : Bool) (io : EndIo) (devpath : String) (seqnum : ℕ)

/-- A zone is one whose file was accepted, and sysfs places the camera's node at a path that the record
can hold. -/
def Call.Valid : Call → Prop
  | .grant io zone => zone.Sound ∧ ∀ d, io.devpath = some d → isDevpath d.toList = true
  | _ => True

def after {α : Type} (x : CameraM α) (h : Host) : Host :=
  match x h with
  | .ok _ h' => h'
  | .error _ h' => h'

def Call.run (h : Host) : Call → Host
  | .grant io zone => after (Camera.grant io zone) h
  | .revoke locked io => after (Camera.revoke locked io) h
  | .revokeFrom locked io zone => after (Camera.revokeFrom locked io zone) h
  | .gone locked io devpath seqnum => after (Camera.gone locked io devpath seqnum) h

lemma after_of_wp {α : Type} {x : CameraM α} {h : Host} {P : Host → Prop}
    (hwp : wp x (fun _ => P) (fun _ => P) h) : P (after x h) := by
  unfold after
  split
  · exact wp_ok hwp ‹_›
  · exact wp_error hwp ‹_›

lemma Call.run_sound {h : Host} (hsound : h.Sound) {c : Call} (hvalid : c.Valid) : (c.run h).Sound := by
  cases c with
  | grant io zone =>
    apply after_of_wp
    exact wp_mono (wp_grant io hvalid.1 hvalid.2 hsound) (fun _ _ hgrant => hgrant.1) (fun _ _ hfailed => hfailed)
  | revoke locked io => exact after_of_wp (wp_endIf locked io _ hsound)
  | revokeFrom locked io zone => exact after_of_wp (wp_endIf locked io _ hsound)
  | gone locked io devpath seqnum => exact after_of_wp (wp_endIf locked io _ hsound)

lemma runs_sound (calls : List Call) {h : Host} (hsound : h.Sound) (hvalid : ∀ c ∈ calls, c.Valid) :
    (calls.foldl Call.run h).Sound := by
  induction calls generalizing h with
  | nil => exact hsound
  | cons c calls ih =>
    apply ih (Call.run_sound hsound (hvalid c mem_cons_self))
    intro d hd
    exact hvalid d (mem_cons_of_mem c hd)

/-- In every state that calls lead to, at most one zone's directory holds the node, the one the record
names; and a grant made there that succeeds is recorded, with its node there if and only if the zone's own
grant was not half ended. -/
theorem camera_held_by_recorded (calls : List Call) (hvalid : ∀ c ∈ calls, c.Valid) (io : GrantIo) (zone : Zone)
    (hcall : (Call.grant io zone).Valid) :
    let h := calls.foldl Call.run Host.fresh
    (∀ y z, h.nodes y ≠ none → h.nodes z ≠ none → y = z) ∧
      (∀ z, h.nodes z ≠ none → ∃ g, h.holder = some g ∧ g.zone = z) ∧
      ∀ g h', grant io zone h = .ok g h' →
        h'.holder = some g ∧ g.zone = zone.name ∧ (h'.nodes zone.name ≠ none ↔ ¬ h.HalfEnded zone.name) := by
  intro h
  have hsound : h.Sound := runs_sound calls (Host.Bare.sound fun _ => rfl) hvalid
  refine ⟨?_, hsound, ?_⟩
  · intro y z hy hz
    obtain ⟨g, hg, rfl⟩ := hsound y hy
    obtain ⟨g', hg', rfl⟩ := hsound z hz
    rw [hg, some_inj] at hg'
    rw [hg']
  · intro g h' hgrant
    have hdone := wp_ok (wp_grant io hcall.1 hcall.2 hsound) hgrant
    exact hdone.2

def personal : Zone where
  name := "personal"
  description := ""
  network := .routed
  nic := none
  localNets := false
  storage := .persistent
  volume := none
  seccomp := none
  landlock := none
  size := none
  memoryMax := none
  pidsMax := none
  cpuMax := none
  ioMax := none
  borderColor := "#3030a0"
  borderPattern := none
  glyph := none
  label := none
  uidBase := some 131072
  transferTo := []
  transferMax := none
  images := []
  sound := false
  removable := false
  camera := true
  holdAwake := false

lemma personal_sound : personal.Sound where
  name_length := by decide
  name_chars := by
    intro c hc
    exact nameChar_iff.mp (all_eq_true.mp (by decide : personal.name.toList.all nameChar = true) c hc)
  nic_switches := by simp [personal]
  nic_mode := by simp [personal]
  local_mode := by simp [personal]
  size_fits := by simp [personal]
  io_mode := by simp [personal]
  volume := by simp [personal]
  transfer_max := by simp [personal]
  uid_base := by
    intro b hb
    obtain rfl : 131072 = b := some_inj.mp hb
    decide
  not_to_itself := by simp [personal]
  colour_lowered := by decide

def webcam : VideoClass where
  entries := [("video0", some "0".toList)]
  dev := fun _ => some "81:0".toList
  name := fun _ => some "Webcam".toList

def letsGo : EndIo where
  device := some ("usb".toList, "1-1:1.0".toList)
  unbind := true
  openLetGo := true
  writeLetGo := true
  unload := true
  writeStayed := true
  removeRecord := true

def works : GrantIo where
  locked := true
  ending := letsGo
  zoneDir := true
  refcnt := none
  load := true
  removeStayed := true
  removeLetGo := true
  looks := [webcam]
  mknod := true
  chown := true
  devpath := some "/devices/usb1/1-1/1-1:1.0/video4linux/video0"
  seqnum := some "4242".toList
  write := true

lemma works_valid : (Call.grant works personal).Valid := by
  refine ⟨personal_sound, ?_⟩
  intro d hd
  obtain rfl : "/devices/usb1/1-1/1-1:1.0/video4linux/video0" = d := some_inj.mp hd
  decide

def halfEnded : List Call := [.grant works personal, .revoke true { letsGo with unbind := false }]

def outcome (h : Host) : Option (Grant × Host) :=
  match grant works personal h with
  | .ok g h' => some (g, h')
  | .error _ _ => none

lemma grant_of_outcome {h h' : Host} {g : Grant} (hout : outcome h = some (g, h')) :
    grant works personal h = .ok g h' := by
  unfold outcome at hout
  split at hout
  · rename_i hgrant
    cases hout
    exact hgrant
  · cases hout

def takenBack : List Call := [.grant works personal, .revoke true letsGo]

theorem camera_held_by_recorded_again :
    (∀ c ∈ takenBack, c.Valid) ∧ ∃ g h', grant works personal (takenBack.foldl Call.run Host.fresh) = .ok g h' ∧
      h'.holder = some g ∧ h'.nodes "personal" ≠ none := by
  have hvalid : ∀ c ∈ takenBack, c.Valid :=
    List.forall_mem_cons.mpr ⟨works_valid, List.forall_mem_singleton.mpr trivial⟩
  have hsome : (outcome (takenBack.foldl Call.run Host.fresh)).isSome = true := by decide +kernel
  obtain ⟨⟨g, h'⟩, hout⟩ := isSome_iff_exists.mp hsome
  have hgrant := grant_of_outcome hout
  obtain ⟨hholder, -, hnode⟩ := (camera_held_by_recorded takenBack hvalid works personal works_valid).2.2 g h' hgrant
  refine ⟨hvalid, g, h', hgrant, hholder, hnode.mpr ?_⟩
  rintro ⟨⟨g', hg', -⟩, -⟩
  have hnone : (takenBack.foldl Call.run Host.fresh).holder.isNone = true := by decide +kernel
  rw [hg'] at hnone
  cases hnone

/-- The grant that follows is answered as in force, and no node is there. -/
theorem half_ended_grant_without_node :
    (∀ c ∈ halfEnded, c.Valid) ∧
      ∃ g h', grant works personal (halfEnded.foldl Call.run Host.fresh) = .ok g h' ∧
        h'.nodes "personal" = none := by
  refine ⟨?_, ?_⟩
  · intro c hc
    simp only [halfEnded, mem_cons, not_mem_nil, or_false] at hc
    obtain rfl | rfl := hc
    · exact works_valid
    · trivial
  · have hnone : (outcome (halfEnded.foldl Call.run Host.fresh)).map (fun r => r.2.nodes "personal") =
        some none := by decide +kernel
    obtain ⟨⟨g, h'⟩, hout, hnode⟩ := map_eq_some_iff.mp hnone
    exact ⟨g, h', grant_of_outcome hout, hnode⟩

end Kryptik.Kryptikd.Camera
