import Kryptik.Sound.Mixer

namespace Kryptik.Sound

open Lib List Option

/-- `c'` stands where `c` stood: the same zone's, and a recording only if that was one. -/
structure Conn.Like (c' c : Conn) : Prop where
  control : c'.kind = .control ↔ c.kind = .control
  record : c'.kind = .record → c.kind = .record
  zone : c'.zone = c.zone
  peer : c'.peer = c.peer

lemma Conn.Like.refl (c : Conn) : c.Like c := ⟨Iff.rfl, id, rfl, rfl⟩

def Event.put : Event → Put
  | .ready _ io => io.put
  | _ => .whole

namespace Mixer

variable {m m' m'' : Mixer} {i : ℕ} {c c' : Conn}

def uid (m : Mixer) (z : ℕ) : Option ℕ := m.zones[z]?.map Zone.uid

def SameZones (zones' zones : List Zone) : Prop :=
  ∀ z : ℕ, zones'[z]?.map (fun zone => (zone.name, zone.uid)) = zones[z]?.map (fun zone => (zone.name, zone.uid))

/-- Every connection of `m'` stands where one of `m` stood. -/
structure Fewer (m' m : Mixer) : Prop where
  size : m'.conns.length = m.conns.length
  conn : ∀ i c', m'.conn i = some c' → ∃ c, m.conn i = some c ∧ c'.Like c

/-- The link between the connections, their zones and the grant. -/
structure Linked (m : Mixer) : Prop where
  zoned : ∀ i c, m.conn i = some c → c.kind ≠ .control → ∃ z, c.zone = some z ∧ c.peer = m.uid z ∧ c.peer ≠ none
  granted : ∀ i c, m.conn i = some c → c.kind = .record → c.zone = m.granted
  one : ∀ i j c d, m.conn i = some c → m.conn j = some d → c.kind = .record → d.kind = .record → i = j
  each : ∀ z, m.streamsOf (some z) ≤ perZone
  all : m.streamsOf none ≤ maxConns - controlSlots
  heard : ∀ w ∈ m.heard, ∃ z, w.granted = some z ∧ w.peer = m.uid z ∧ w.peer ≠ none

lemma SameZones.uid {zones' zones : List Zone} (h : SameZones zones' zones) (z : ℕ) :
    zones'[z]?.map Zone.uid = zones[z]?.map Zone.uid := by
  have := congrArg (Option.map Prod.snd) (h z)
  simpa [Function.comp_def] using this

lemma Fewer.refl (m : Mixer) : Fewer m m := ⟨rfl, fun _ c h => ⟨c, h, Conn.Like.refl c⟩⟩

lemma conn_setConn (hc : m.conn i = some c) (x : Option Conn) (j : ℕ) :
    (m.setConn i x).conn j = if j = i then x else m.conn j :=
  Slots.get_set (List.getElem?_eq_some_iff.mp (Slots.slot_of_get hc)).1 j

lemma fewer_setConn (hc : m.conn i = some c) (hlike : c'.Like c) : Fewer (m.setConn i (some c')) m := by
  refine ⟨length_set, ?_⟩
  intro j d hd
  rw [conn_setConn hc] at hd
  split_ifs at hd with hj
  · subst hj
    cases hd
    exact ⟨c, hc, hlike⟩
  · exact ⟨d, hd, Conn.Like.refl d⟩

lemma fewer_endConn (m : Mixer) (i : ℕ) : Fewer (m.endConn i) m := by
  refine ⟨length_set, ?_⟩
  intro j d hd
  by_cases hi : i < m.conns.length
  · have hget : (m.endConn i).conn j = if j = i then none else m.conn j := Slots.get_set hi j
    rw [hget] at hd
    split_ifs at hd
    exact ⟨d, hd, Conn.Like.refl d⟩
  · have hsame : m.endConn i = m := by
      simp [endConn, setConn, set_eq_of_length_le (Nat.le_of_not_lt hi)]
    rw [hsame] at hd
    exact ⟨d, hd, Conn.Like.refl d⟩

lemma fewer_map {f : Conn → Option Conn} (hf : ∀ c c', f c = some c' → c'.Like c) :
    Fewer { m with conns := m.conns.map (fun slot => slot.bind f) } m := by
  refine ⟨length_map _, ?_⟩
  intro i c' hc'
  have hget := (Slots.get_map_bind f m.conns i).symm.trans hc'
  obtain ⟨c, hc, hfc⟩ := bind_eq_some_iff.mp hget
  exact ⟨c, hc, hf c c' hfc⟩

lemma streamsOf_le (hsize : m'.conns.length = m.conns.length) (h : ∀ i c', m'.conn i = some c' →
      ∃ c, m.conn i = some c ∧ (c'.kind = .control ↔ c.kind = .control) ∧ c'.zone = c.zone) (zone : Option ℕ) :
    m'.streamsOf zone ≤ m.streamsOf zone := by
  apply Slots.count_le_count _ hsize
  intro i c' hc' hp
  obtain ⟨c, hc, hcontrol, hzone⟩ := h i c' hc'
  refine ⟨c, hc, ?_⟩
  simp only [Bool.and_eq_true, bne_iff_ne, ne_eq] at hp ⊢
  rw [← hcontrol, ← hzone]
  exact hp

lemma Fewer.streamsOf_le (h : Fewer m' m) (zone : Option ℕ) : m'.streamsOf zone ≤ m.streamsOf zone := by
  apply Mixer.streamsOf_le h.size
  intro i c' hc'
  obtain ⟨c, hc, hlike⟩ := h.conn i c' hc'
  exact ⟨c, hc, hlike.control, hlike.zone⟩

lemma Linked.fewer (hs : m.Linked) (h : Fewer m' m) (hzones : ∀ z, m'.uid z = m.uid z) (hheard : m'.heard = m.heard)
    (hgranted : ∀ i c, m'.conn i = some c → c.kind = .record → c.zone = m'.granted) : m'.Linked where
  zoned := by
    intro i c' hc' hkind
    obtain ⟨c, hc, hlike⟩ := h.conn i c' hc'
    obtain ⟨z, hz, hpeer, hne⟩ := hs.zoned i c hc (mt hlike.control.mpr hkind)
    exact ⟨z, hlike.zone.trans hz, by rw [hlike.peer, hpeer, hzones], by rwa [hlike.peer]⟩
  granted := hgranted
  one := by
    intro i j c' d' hc' hd' hrc hrd
    obtain ⟨c, hc, hlike⟩ := h.conn i c' hc'
    obtain ⟨d, hd, hlike'⟩ := h.conn j d' hd'
    exact hs.one i j c d hc hd (hlike.record hrc) (hlike'.record hrd)
  each z := Nat.le_trans (h.streamsOf_le (some z)) (hs.each z)
  all := Nat.le_trans (h.streamsOf_le none) hs.all
  heard := by
    intro w hw
    rw [hheard] at hw
    obtain ⟨z, hz, hpeer, hne⟩ := hs.heard w hw
    exact ⟨z, hz, by rw [hpeer, hzones], hne⟩

lemma Linked.same (hs : m.Linked) (h : Fewer m' m) (hzones : ∀ z, m'.uid z = m.uid z)
    (hheard : m'.heard = m.heard) (hgrant : m'.granted = m.granted) : m'.Linked := by
  apply hs.fewer h hzones hheard
  intro i c' hc' hrecord
  obtain ⟨c, hc, hlike⟩ := h.conn i c' hc'
  rw [hgrant, hlike.zone]
  exact hs.granted i c hc (hlike.record hrecord)

lemma Linked.endConn (hs : m.Linked) (i : ℕ) : (m.endConn i).Linked :=
  hs.same (fewer_endConn m i) (fun _ => rfl) rfl rfl

lemma Linked.setConn (hs : m.Linked) (hc : m.conn i = some c) (hlike : c'.Like c) : (m.setConn i (some c')).Linked :=
  hs.same (fewer_setConn hc hlike) (fun _ => rfl) rfl rfl

lemma free_of_findIdx (h : m.conns.findIdx? isNone = some i) : m.conns[i]? = some none := by
  obtain ⟨hi, hnone, -⟩ := findIdx?_eq_some_iff_getElem.mp h
  rw [getElem?_eq_getElem hi, isNone_iff_eq_none.mp hnone]

lemma streamsOf_set (hfree : m.conns[i]? = some none) (c : Conn) (zone : Option ℕ) :
    (m.setConn i (some c)).streamsOf zone =
      m.streamsOf zone + (c.kind != .control && (zone == none || c.zone == zone)).toNat :=
  Slots.count_set _ hfree (some c)

lemma Linked.newConn (hs : m.Linked) (hkind : c.kind ≠ .record)
    (hzoned : c.kind ≠ .control → ∃ z, c.zone = some z ∧ c.peer = m.uid z ∧ c.peer ≠ none ∧
      m.streamsOf (some z) < perZone ∧ m.streamsOf none < maxConns - controlSlots) : (m.newConn c).Linked := by
  unfold Mixer.newConn
  split
  · rename_i i hidx
    have hfree := free_of_findIdx hidx
    have hi := (List.getElem?_eq_some_iff.mp hfree).1
    by_cases hfd : c.fd = 0
    · rw [if_pos hfd]
      exact hs.endConn i
    rw [if_neg hfd]
    have hconn : ∀ j, (m.setConn i (some c)).conn j = if j = i then some c else m.conn j := Slots.get_set hi
    have hold : ∀ j d, (m.setConn i (some c)).conn j = some d → d.kind = .record → m.conn j = some d := by
      intro j d hd hrecord
      rw [hconn] at hd
      split_ifs at hd
      · cases hd
        exact absurd hrecord hkind
      · exact hd
    refine ⟨?_, ?_, ?_, ?_, ?_, hs.heard⟩
    · intro j d hd hcontrol
      rw [hconn] at hd
      split_ifs at hd
      · cases hd
        obtain ⟨z, hz, hpeer, hne, -⟩ := hzoned hcontrol
        exact ⟨z, hz, hpeer, hne⟩
      · exact hs.zoned j d hd hcontrol
    · intro j d hd hrecord
      exact hs.granted j d (hold j d hd hrecord) hrecord
    · intro j k d e hd he hrd hre
      exact hs.one j k d e (hold j d hd hrd) (hold k e he hre) hrd hre
    · intro z
      rw [streamsOf_set hfree]
      by_cases hcontrol : c.kind = .control
      · simpa [hcontrol] using hs.each z
      · obtain ⟨y, hy, -, -, hroom, -⟩ := hzoned hcontrol
        by_cases hzy : y = z
        · subst hzy
          have := Bool.toNat_le (c.kind != .control && (some y == none || c.zone == some y))
          omega
        · simpa [hy, beq_eq_false_iff_ne.mpr hzy] using hs.each z
    · rw [streamsOf_set hfree]
      by_cases hcontrol : c.kind = .control
      · simpa [hcontrol] using hs.all
      · obtain ⟨-, -, -, -, -, hroom⟩ := hzoned hcontrol
        have := Bool.toNat_le (c.kind != .control && ((none : Option ℕ) == none || c.zone == none))
        omega
  · exact hs

lemma Linked.acceptOn (hs : m.Linked) (zone : Option ℕ) (fd : ℕ) (cred : Option ℕ) (now : ℤ) :
    (m.acceptOn zone fd cred now).Linked := by
  unfold Mixer.acceptOn
  cases zone with
  | none => exact hs.newConn (by simp) (by simp)
  | some z =>
    simp only
    split_ifs with hcred hfull
    · exact hs
    · exact hs
    · apply hs.newConn (by simp)
      intro _
      obtain ⟨hsome, hsame⟩ := not_or.mp hcred
      obtain ⟨hzone, hall⟩ := not_or.mp hfull
      exact ⟨z, rfl, not_not.mp hsame, hsome, Nat.lt_of_not_le hzone, Nat.lt_of_not_le hall⟩

lemma like_unlessRecords {keep : Option ℕ} (h : unlessRecords keep c = some c') :
    c'.Like c ∧ (c'.kind = .record → c'.zone = keep) := by
  unfold unlessRecords at h
  split_ifs at h with hends
  cases h
  refine ⟨Conn.Like.refl c, ?_⟩
  intro hrecord
  by_contra hzone
  exact hends ⟨hrecord, hzone⟩

lemma fewer_endRecords (m : Mixer) (keep : Option ℕ) : Fewer (m.endRecords keep) m :=
  fewer_map fun _ _ h => (like_unlessRecords h).1

lemma endRecords_zone {keep : Option ℕ} (hc : (m.endRecords keep).conn i = some c) (hrecord : c.kind = .record) :
    c.zone = keep := by
  have hget := (Slots.get_map_bind _ m.conns i).symm.trans hc
  obtain ⟨d, -, hd⟩ := bind_eq_some_iff.mp hget
  exact (like_unlessRecords hd).2 hrecord

lemma recordHolder_eq (m : Mixer) (put : Put) : ∃ holder, m.recordHolder put = { m with holder } := by
  cases put with
  | whole | cut n => exact ⟨_, rfl⟩
  | failed => exact ⟨m.holder, rfl⟩

lemma Linked.regrant (hs : m.Linked) (granted : Option ℕ) (put : Put) :
    ({ m.endRecords granted with granted := granted }.recordHolder put).Linked := by
  obtain ⟨holder, hholder⟩ := recordHolder_eq { m.endRecords granted with granted := granted } put
  rw [hholder]
  have hfewer := fewer_endRecords m granted
  refine hs.fewer ⟨hfewer.size, hfewer.conn⟩ (fun _ => rfl) rfl ?_
  intro i c hc hrecord
  exact endRecords_zone hc hrecord

lemma sameZones_modify (zones : List Zone) (z : ℕ) {f : Zone → Zone}
    (hf : ∀ zone, ((f zone).name, (f zone).uid) = (zone.name, zone.uid)) : SameZones (zones.modify z f) zones := by
  intro y
  rw [getElem?_modify]
  cases zones[y]? with
  | none => simp
  | some zone => split <;> simp [hf]

lemma zoneNamed_lt {name : List UInt8} {z : ℕ} (h : m.zoneNamed name = some z) : z < m.zones.length :=
  (findIdx?_eq_some_iff_getElem.mp h).1

lemma control_cases (m : Mixer) (put : Put) (line : List UInt8) :
    (∃ zones master masterMuted, SameZones zones m.zones ∧
      (m.control put line).1 = { m with zones, master, masterMuted }) ∨
    ∃ granted, (∀ z, granted = some z → z < m.zones.length) ∧
      (m.control put line).1 = { m.endRecords granted with granted }.recordHolder put := by
  have hsame : SameZones m.zones m.zones := fun _ => rfl
  unfold Mixer.control
  split
  · split_ifs
    · exact .inl ⟨_, _, _, hsame, rfl⟩
    · exact .inr ⟨none, by simp, rfl⟩
    · exact .inl ⟨_, _, _, hsame, rfl⟩
    · exact .inl ⟨_, _, _, hsame, rfl⟩
  · split_ifs
    · split
      · exact .inl ⟨_, _, _, hsame, rfl⟩
      · rename_i z hz
        refine .inr ⟨some z, ?_, rfl⟩
        intro y hy
        cases hy
        exact zoneNamed_lt hz
    · split
      · exact .inl ⟨_, _, _, hsame, rfl⟩
      · split_ifs
        · exact .inr ⟨none, by simp, rfl⟩
        · exact .inl ⟨_, _, _, hsame, rfl⟩
    · split <;> exact .inl ⟨_, _, _, hsame, rfl⟩
    · split <;> exact .inl ⟨_, _, _, hsame, rfl⟩
    · exact .inl ⟨_, _, _, hsame, rfl⟩
  · split_ifs
    · split
      · exact .inl ⟨_, _, _, hsame, rfl⟩
      · split
        · refine .inl ⟨_, _, _, ?_, rfl⟩
          exact sameZones_modify m.zones _ fun _ => rfl
        · exact .inl ⟨_, _, _, hsame, rfl⟩
    · split
      · exact .inl ⟨_, _, _, hsame, rfl⟩
      · split
        · refine .inl ⟨_, _, _, ?_, rfl⟩
          exact sameZones_modify m.zones _ fun _ => rfl
        · exact .inl ⟨_, _, _, hsame, rfl⟩
    · exact .inl ⟨_, _, _, hsame, rfl⟩
  · exact .inl ⟨_, _, _, hsame, rfl⟩

lemma Linked.control (hs : m.Linked) (put : Put) (line : List UInt8) : (m.control put line).1.Linked := by
  obtain ⟨zones, master, masterMuted, hzones, heq⟩ | ⟨granted, -, heq⟩ := control_cases m put line
  · rw [heq]
    exact hs.same ⟨rfl, (Fewer.refl m).conn⟩ hzones.uid rfl rfl
  · rw [heq]
    exact hs.regrant granted put

lemma no_record (h : m.recording = false) (hc : m.conn i = some c) : c.kind ≠ .record := by
  intro hrecord
  have hslot := mem_of_getElem? (Slots.slot_of_get hc)
  have := any_eq_false.mp h _ hslot
  simp [hrecord] at this

lemma Linked.beginRecord (hs : m.Linked) (hc : m.conn i = some c) (hkind : c.kind ≠ .control)
    (hgranted : m.granted = c.zone) (hnone : m.recording = false) (ring : List UInt8) :
    (m.setConn i (some { c with kind := .record, ring })).Linked := by
  have hconn := conn_setConn hc (some { c with kind := .record, ring })
  have honly : ∀ j d, (m.setConn i (some { c with kind := .record, ring })).conn j = some d →
      d.kind = .record → j = i ∧ d.zone = c.zone := by
    intro j d hd hrecord
    rw [hconn] at hd
    split_ifs at hd with hj
    · cases hd
      exact ⟨hj, rfl⟩
    · exact absurd hrecord (no_record hnone hd)
  have hcount : ∀ zone, (m.setConn i (some { c with kind := .record, ring })).streamsOf zone ≤ m.streamsOf zone := by
    apply streamsOf_le length_set
    intro j d hd
    rw [hconn] at hd
    split_ifs at hd with hj
    · subst hj
      cases hd
      exact ⟨c, hc, by simp [hkind], rfl⟩
    · exact ⟨d, hd, Iff.rfl, rfl⟩
  refine ⟨?_, ?_, ?_, fun z => Nat.le_trans (hcount (some z)) (hs.each z), Nat.le_trans (hcount none) hs.all, hs.heard⟩
  · intro j d hd hcontrol
    rw [hconn] at hd
    split_ifs at hd
    · cases hd
      exact hs.zoned i c hc hkind
    · exact hs.zoned j d hd hcontrol
  · intro j d hd hrecord
    exact (honly j d hd hrecord).2.trans hgranted.symm
  · intro j k d e hd he hrd hre
    exact (honly j d hd hrd).1.trans (honly k e he hre).1.symm

lemma Linked.helloLine (hs : m.Linked) (hc : m.conn i = some c) (hkind : c.kind ≠ .control) (memory : Bool)
    (line : List UInt8) : (m.helloLine i c memory line).1.Linked := by
  unfold Mixer.helloLine
  split
  · exact hs.endConn i
  · rename_i hrefusal
    unfold refusal at hrefusal
    split_ifs at hrefusal with hgranted hnone hwords
    split_ifs with hplay
    · exact hs.setConn hc ⟨by simp [hkind], by simp, rfl, rfl⟩
    · have hline : line = text "record" := by
        by_contra hline
        exact hwords ⟨hplay, hline⟩
      have hzone : m.granted = c.zone := by
        by_contra hne
        exact hgranted ⟨hline, hne⟩
      have hfree : m.recording = false := by
        rw [Bool.eq_false_iff]
        intro hrec
        exact hnone ⟨hline, hrec⟩
      exact hs.beginRecord hc hkind hzone hfree []

lemma Linked.readLine (hs : m.Linked) (io : ReadyIo) (hc : m.conn i = some c) (bytes : List UInt8)
    (hlike : c'.Like c) : (m.readLine io i bytes c').Linked := by
  induction bytes generalizing c' with
  | nil =>
    unfold Mixer.readLine
    split_ifs
    · exact hs.endConn i
    · exact hs.setConn hc hlike
  | cons ch rest ih =>
    have hsaid : Conn.Like { c' with line := [] } c := ⟨hlike.control, hlike.record, hlike.zone, hlike.peer⟩
    unfold Mixer.readLine
    split_ifs with hnewline hcontrol hlong
    · exact ((hs.setConn hc hsaid).control io.put (cString c'.line)).endConn i
    · exact (hs.setConn hc hsaid).helloLine ((conn_setConn hc _ i).trans (if_pos rfl)) hcontrol io.memory _
    · exact hs.endConn i
    · exact ih ⟨hlike.control, hlike.record, hlike.zone, hlike.peer⟩

lemma Linked.ready (hs : m.Linked) (io : ReadyIo) (i : ℕ) : (m.ready io i).Linked := by
  unfold Mixer.ready
  split
  · exact hs
  · rename_i c hc
    split
    · simp only [Mixer.readPlay]
      split_ifs
      · exact hs.endConn i
      · exact hs.setConn hc ⟨Iff.rfl, id, rfl, rfl⟩
      · exact hs.setConn hc ⟨Iff.rfl, id, rfl, rfl⟩
    · exact hs.readLine io hc io.bytes (Conn.Like.refl c)
    · exact hs.readLine io hc io.bytes (Conn.Like.refl c)
    · split_ifs
      · exact hs.endConn i
      · exact hs

lemma like_mixed (h : mixed c = some c') : c'.Like c := by
  simp only [mixed] at h
  split_ifs at h
  · cases h
    exact ⟨Iff.rfl, id, rfl, rfl⟩
  · cases h
    exact Conn.Like.refl c

lemma conn_of_recorder (h : m.recorder = some (i, c)) : m.conn i = some c ∧ c.kind = .record := by
  unfold recorder at h
  split at h
  · cases h
  · rename_i k hk
    obtain ⟨d, hd, hpair⟩ := map_eq_some_iff.mp h
    cases hpair
    obtain ⟨hlt, hrecord, -⟩ := findIdx?_eq_some_iff_getElem.mp hk
    rw [getElem_reverse] at hrecord
    have hslot := (List.getElem?_eq_some_iff.mp (Slots.slot_of_get hd)).2
    rw [hslot] at hrecord
    exact ⟨hd, by simpa [isRecord] using hrecord⟩

lemma Linked.hear (hs : m.Linked) (hc : m.conn i = some c) (hrecord : c.kind = .record) (bytes : List UInt8) :
    (m.hear c bytes).Linked := by
  refine ⟨hs.zoned, hs.granted, hs.one, hs.each, hs.all, ?_⟩
  intro w hw
  obtain hw | hw := mem_append.mp hw
  · exact hs.heard w hw
  · obtain rfl := mem_singleton.mp hw
    obtain ⟨z, hz, hpeer, hne⟩ := hs.zoned i c hc (by simp [hrecord])
    exact ⟨z, (hs.granted i c hc hrecord).symm.trans hz, hpeer, hne⟩

lemma Linked.capturing (hs : m.Linked) (capturing : Bool) : { m with capturing }.Linked :=
  hs.same ⟨rfl, (Fewer.refl m).conn⟩ (fun _ => rfl) rfl rfl

lemma Linked.recordIn (hs : m.Linked) (io : CaptureIo) : (m.recordIn io).Linked := by
  unfold Mixer.recordIn
  split
  · exact hs.capturing false
  · rename_i i c hrecorder
    obtain ⟨hc, hrecord⟩ := conn_of_recorder hrecorder
    have hheard := (hs.capturing true).hear hc hrecord
    simp only
    split_ifs
    · exact hs.endConn i
    · exact (hs.endConn i).capturing false
    · exact (hheard _).endConn i
    · exact (hheard _).setConn hc ⟨Iff.rfl, id, rfl, rfl⟩

lemma Linked.step (hs : m.Linked) (e : Event) : (m.step e).Linked := by
  cases e with
  | accept zone fd cred now => exact hs.acceptOn zone fd cred now
  | expire i now =>
    simp only [Mixer.step, Mixer.expire]
    split
    · exact hs
    · split_ifs
      · exact hs.endConn i
      · exact hs
  | ready i io => exact hs.ready io i
  | mix => exact hs.same (fewer_map fun _ _ h => like_mixed h) (fun _ => rfl) rfl rfl
  | capture io => exact hs.recordIn io

lemma start_zones (zones : List Zone) (holder : List UInt8) (master : ℤ) (masterMuted : Bool) (put : Put) :
    (start zones holder master masterMuted put).zones = zones := by
  cases put <;> rfl

lemma linked_start (zones : List Zone) (holder : List UInt8) (master : ℤ) (masterMuted : Bool) (put : Put) :
    (start zones holder master masterMuted put).Linked := by
  let bare : Mixer :=
    { zones, conns := replicate maxConns none, granted := none, master, masterMuted, capturing := false, holder,
      heard := [] }
  obtain ⟨text, htext⟩ := recordHolder_eq bare put
  have hstart : start zones holder master masterMuted put = { bare with holder := text } := htext
  have hfree : ∀ i c, (start zones holder master masterMuted put).conn i ≠ some c := by
    intro i c hc
    rw [hstart] at hc
    have hslot := Slots.slot_of_get hc
    simp [bare, getElem?_replicate] at hslot
  rw [hstart] at hfree ⊢
  refine ⟨?_, ?_, ?_, ?_, ?_, by simp [bare]⟩
  · intro i c hc
    exact absurd hc (hfree i c)
  · intro i c hc
    exact absurd hc (hfree i c)
  · intro i j c d hc
    exact absurd hc (hfree i c)
  · intro z
    exact Nat.zero_le _
  · exact Nat.zero_le _

lemma Linked.run (hs : m.Linked) (events : List Event) : (events.foldl Mixer.step m).Linked := by
  induction events generalizing m with
  | nil => exact hs
  | cons e rest ih => exact ih (hs.step e)

def Names (m : Mixer) (zones : List Zone) : Prop :=
  (m.granted = none ∧ m.holder = []) ∨
    ∃ z zone, m.granted = some z ∧ zones[z]? = some zone ∧ m.holder = zone.name ++ [10]

/-- The zones are the same, and the grant stands or the file was written for the new one. -/
structure Told (put : Put) (m' m : Mixer) : Prop where
  zones : SameZones m'.zones m.zones
  named : m'.granted = m.granted ∨ (put = .whole → m'.Names m'.zones)

lemma Told.of_eq {put : Put} (hzones : m'.zones = m.zones) (hgranted : m'.granted = m.granted) : Told put m' m :=
  ⟨fun _ => by rw [hzones], Or.inl hgranted⟩

lemma names_recordHolder (hgranted : ∀ z, m.granted = some z → z < m.zones.length) :
    (m.recordHolder .whole).Names m.zones := by
  cases hg : m.granted with
  | none => exact .inl ⟨hg, by simp [recordHolder, holderText, hg]⟩
  | some z =>
    have hz := getElem?_eq_getElem (hgranted z hg)
    exact .inr ⟨z, _, hg, hz, by simp [recordHolder, holderText, hg, hz]⟩

lemma told_control (m : Mixer) (put : Put) (line : List UInt8) : Told put (m.control put line).1 m := by
  obtain ⟨zones, master, masterMuted, hzones, heq⟩ | ⟨granted, hgranted, heq⟩ := control_cases m put line
  · rw [heq]
    exact ⟨hzones, Or.inl rfl⟩
  · obtain ⟨holder, hholder⟩ := recordHolder_eq { m.endRecords granted with granted } put
    rw [heq]
    refine ⟨fun _ => by rw [hholder]; rfl, .inr ?_⟩
    intro hput
    subst hput
    exact names_recordHolder hgranted

lemma told_helloLine (m : Mixer) (put : Put) (i : ℕ) (c : Conn) (memory : Bool) (line : List UInt8) :
    Told put (m.helloLine i c memory line).1 m := by
  unfold helloLine
  split <;> exact Told.of_eq rfl rfl

lemma told_readLine (m : Mixer) (io : ReadyIo) (i : ℕ) (bytes : List UInt8) (c : Conn) :
    Told io.put (m.readLine io i bytes c) m := by
  induction bytes generalizing c with
  | nil =>
    unfold readLine
    split_ifs <;> exact Told.of_eq rfl rfl
  | cons ch rest ih =>
    unfold readLine
    split_ifs
    · have htold := told_control (m.setConn i (some { c with line := [] })) io.put (cString c.line)
      exact ⟨htold.zones, htold.named⟩
    · have htold := told_helloLine (m.setConn i (some { c with line := [] })) io.put i
        { c with line := [] } io.memory (cString c.line)
      exact ⟨htold.zones, htold.named⟩
    · exact Told.of_eq rfl rfl
    · exact ih _

lemma told_step (m : Mixer) (e : Event) : Told e.put (m.step e) m := by
  cases e with
  | accept zone fd cred now =>
    simp only [step, acceptOn, newConn]
    repeat' split
    all_goals exact Told.of_eq rfl rfl
  | expire i now =>
    simp only [step, expire]
    repeat' split
    all_goals exact Told.of_eq rfl rfl
  | ready i io =>
    simp only [step, ready]
    split
    · exact Told.of_eq rfl rfl
    · split
      · simp only [readPlay]
        split_ifs <;> exact Told.of_eq rfl rfl
      · exact told_readLine m io i io.bytes _
      · exact told_readLine m io i io.bytes _
      · split_ifs <;> exact Told.of_eq rfl rfl
  | mix => exact Told.of_eq rfl rfl
  | capture io =>
    simp only [step, recordIn]
    repeat' split
    all_goals exact Told.of_eq rfl rfl

lemma sameZones_run (m : Mixer) (events : List Event) : SameZones (events.foldl Mixer.step m).zones m.zones := by
  induction events generalizing m with
  | nil => exact fun _ => rfl
  | cons e rest ih => exact fun z => (ih (m.step e) z).trans ((told_step m e).zones z)

lemma Names.same {zones' zones : List Zone} (h : m.Names zones') (hzones : SameZones zones' zones) :
    m.Names zones := by
  obtain hnone | ⟨z, zone, hgranted, hzone, hholder⟩ := h
  · exact .inl hnone
  · have hcalls := hzones z
    rw [hzone] at hcalls
    obtain ⟨zone', hzone', hcall⟩ := map_eq_some_iff.mp hcalls.symm
    refine .inr ⟨z, zone', hgranted, hzone', ?_⟩
    rw [hholder, (Prod.mk.inj hcall).1]

end Mixer

open Mixer in
/-- Only the zone that holds the grant hears the microphone, in every run of the loop. -/
theorem microphone_heard_by_granted (zones : List Zone) (holder : List UInt8) (master : ℤ) (masterMuted : Bool)
    (put : Put) (events : List Event) :
    let m := events.foldl Mixer.step (Mixer.start zones holder master masterMuted put)
    (∀ i c, m.conn i = some c → c.kind = .record →
      ∃ z zone, m.granted = some z ∧ zones[z]? = some zone ∧ c.zone = some z ∧ c.peer = some zone.uid) ∧
    (∀ i j c d, m.conn i = some c → m.conn j = some d → c.kind = .record → d.kind = .record → i = j) ∧
    (∀ w ∈ m.heard, ∃ z zone, w.granted = some z ∧ zones[z]? = some zone ∧ w.peer = some zone.uid) ∧
    (∀ z, m.streamsOf (some z) ≤ perZone) ∧ m.streamsOf none ≤ maxConns - controlSlots ∧
    ∀ e, (m.step e).granted ≠ m.granted → e.put = .whole → ((m.step e).granted = none ∧ (m.step e).holder = []) ∨
      ∃ z zone, (m.step e).granted = some z ∧ zones[z]? = some zone ∧ (m.step e).holder = zone.name ++ [10] := by
  intro m
  have hs : m.Linked := (linked_start zones holder master masterMuted put).run events
  have hzones : SameZones m.zones zones := by
    intro z
    exact (sameZones_run _ events z).trans (by rw [start_zones])
  have hpeer : ∀ {z peer}, peer = m.uid z → peer ≠ none → ∃ zone, zones[z]? = some zone ∧ peer = some zone.uid := by
    intro z peer hpeer hne
    rw [uid, hzones.uid] at hpeer
    obtain ⟨u, hu⟩ := ne_none_iff_exists'.mp hne
    obtain ⟨zone, hzone, huid⟩ := map_eq_some_iff.mp (hpeer.symm.trans hu)
    exact ⟨zone, hzone, by rw [hu, huid]⟩
  refine ⟨?_, hs.one, ?_, hs.each, hs.all, ?_⟩
  · intro i c hc hrecord
    obtain ⟨z, hz, hp, hne⟩ := hs.zoned i c hc (by simp [hrecord])
    obtain ⟨zone, hzone, huid⟩ := hpeer hp hne
    exact ⟨z, zone, (hs.granted i c hc hrecord).symm.trans hz, hzone, hz, huid⟩
  · intro w hw
    obtain ⟨z, hz, hp, hne⟩ := hs.heard w hw
    obtain ⟨zone, hzone, huid⟩ := hpeer hp hne
    exact ⟨z, zone, hz, hzone, huid⟩
  · intro e hchange hput
    have htold := told_step m e
    have hnames := (htold.named.resolve_left hchange) hput
    exact hnames.same fun z => (htold.zones z).trans (hzones z)

end Kryptik.Sound
