import Kryptik.Lib.History
import Kryptik.Kryptikd.Suspend

namespace Kryptik.Kryptikd.Suspend

open Lib.History List Host

variable {z : String} {looks : Looks}

def Host.Running (h : Host) (zone : String) : Prop :=
  zone ∈ h.names ∧ (h.zones zone).running = true ∧ (h.zones zone).cgroup ≠ .gone

def Host.Frozen (h : Host) (zone : String) : Prop := (h.zones zone).cgroup = .live true true

def Host.Thawed (h : Host) (zone : String) : Prop := ∀ frozen, (h.zones zone).cgroup ≠ .live true frozen

def Host.Waits (h : Host) (zone : String) : Prop := h.volume zone = some .suspended

def Host.HasKey (h : Host) (zone : String) : Prop := h.volume zone = none ∨ h.volume zone = some .keyed

def Machine.Unwoken (m : Machine) : Prop := ∀ w ∈ m.thaws, w.2 ≠ some .suspended

/-- Zones with `P` may have been thawed, and nothing else happened. -/
structure Thaws (P : String → Prop) (m m' : Machine) : Prop where
  host : m'.host = { m.host with zones := m'.host.zones }
  zones : ∀ z, m'.host.zones z = m.host.zones z ∨
    P z ∧ m'.host.zones z = { m.host.zones z with cgroup := (m.host.zones z).cgroup.setFreeze false }
  thaws : ∀ w ∈ m'.thaws, w ∈ m.thaws ∨ P w.1 ∧ w.2 = m.host.volume w.1

lemma setFreeze_setFreeze (on on' : Bool) (c : Cgroup) (h : on' = false) :
    (c.setFreeze on).setFreeze on' = c.setFreeze on' := by
  subst h
  cases c <;> rfl

namespace Thaws

variable {P Q : String → Prop} {m m' m'' : Machine}

lemma refl (P : String → Prop) (m : Machine) : Thaws P m m where
  host := rfl
  zones := fun _ => Or.inl rfl
  thaws := fun _ h => Or.inl h

lemma imp (h : Thaws P m m') (hpq : ∀ z, P z → Q z) : Thaws Q m m' where
  host := h.host
  zones := fun z => (h.zones z).imp_right fun hz => ⟨hpq z hz.1, hz.2⟩
  thaws := fun w hw => (h.thaws w hw).imp_right fun hw => ⟨hpq _ hw.1, hw.2⟩

lemma volume (h : Thaws P m m') (z : String) : m'.host.volume z = m.host.volume z := by
  rw [h.host]
  rfl

lemma trans (h : Thaws P m m') (h' : Thaws P m' m'') : Thaws P m m'' where
  host := by
    rw [h'.host, h.host]
  zones := by
    intro z
    obtain hz | ⟨hp, hz⟩ := h.zones z
    · rw [← hz]
      exact h'.zones z
    · obtain hz' | ⟨-, hz'⟩ := h'.zones z
      · exact .inr ⟨hp, hz'.trans hz⟩
      · refine .inr ⟨hp, hz'.trans ?_⟩
        rw [hz]
        simp [setFreeze_setFreeze false false _ rfl]
  thaws := by
    intro w hw
    obtain hw | ⟨hp, hw⟩ := h'.thaws w hw
    · exact h.thaws w hw
    · exact .inr ⟨hp, hw.trans (h.volume w.1)⟩

lemma one {z : String} (h : P z) : Thaws P m (m.thaw z) where
  host := rfl
  zones := by
    intro z'
    by_cases hz : z' = z
    · subst hz
      exact .inr ⟨h, m.host.setCgroup_self _ _⟩
    · exact .inl (m.host.setCgroup_of_ne _ hz)
  thaws := by
    intro w hw
    obtain hw | hw := mem_append.mp hw
    · exact .inl hw
    · obtain rfl := mem_singleton.mp hw
      exact .inr ⟨h, rfl⟩

lemma thawed (h : Thaws P m m') {z : String} (hz : m.host.Thawed z) : m'.host.Thawed z := by
  intro frozen hc
  obtain he | ⟨-, he⟩ := h.zones z
  · exact hz frozen (he ▸ hc)
  · rw [he] at hc
    cases hcg : (m.host.zones z).cgroup <;> simp [Cgroup.setFreeze, hcg] at hc

lemma unwoken (h : Thaws P m m') (hm : m.Unwoken) (hp : ∀ z, P z → ¬ m.host.Waits z) : m'.Unwoken := by
  intro w hw
  obtain hw | ⟨hpw, hv⟩ := h.thaws w hw
  · exact hm w hw
  · rw [hv]
    exact hp _ hpw

end Thaws

lemma thawed_thaw (m : Machine) (z : String) : (m.thaw z).host.Thawed z := by
  intro frozen hc
  have hz : ((m.thaw z).host.zones z).cgroup = (m.host.zones z).cgroup.setFreeze false :=
    congrArg Entry.cgroup (m.host.setCgroup_self z _)
  rw [hz] at hc
  cases hcg : (m.host.zones z).cgroup <;> simp [Cgroup.setFreeze, hcg] at hc

lemma undo_thaws (done : List String) (m : Machine) :
    Thaws (· ∈ done) m (undo done m) ∧ ∀ z ∈ done, (undo done m).host.Thawed z := by
  induction done generalizing m with
  | nil => exact ⟨Thaws.refl _ m, fun z hz => absurd hz not_mem_nil⟩
  | cons z done ih =>
    obtain ⟨hthaws, hdone⟩ := ih (m.thaw z)
    have hone : Thaws (· ∈ z :: done) m (m.thaw z) := Thaws.one mem_cons_self
    refine ⟨hone.trans (hthaws.imp fun _ h => mem_cons_of_mem z h), ?_⟩
    rintro z' (_ | ⟨_, hz'⟩)
    · exact hthaws.thawed (thawed_thaw m z)
    · exact hdone z' hz'

lemma thawEach_thaws (looks : Looks) (waiting zones : List String) (m : Machine) :
    Thaws (fun z => z ∈ zones ∧ z ∉ waiting ∧ m.host.held looks z = true) m (thawEach looks waiting zones m) ∧
      ∀ z ∈ zones, z ∉ waiting → m.host.held looks z = true → (thawEach looks waiting zones m).host.Thawed z := by
  induction zones generalizing m with
  | nil => exact ⟨Thaws.refl _ m, fun z hz => absurd hz not_mem_nil⟩
  | cons z zones ih =>
    unfold thawEach
    split
    · next hw =>
      obtain ⟨hthaws, hall⟩ := ih m
      refine ⟨hthaws.imp fun _ h => ⟨mem_cons_of_mem z h.1, h.2⟩, ?_⟩
      rintro z' (_ | ⟨_, hz'⟩) hnw
      · exact absurd hw hnw
      · exact hall z' hz' hnw
    · next hw =>
      split
      · next hheld =>
        obtain ⟨hthaws, hall⟩ := ih (m.thaw z)
        have hone : Thaws (fun z' => z' ∈ z :: zones ∧ z' ∉ waiting ∧ m.host.held looks z' = true) m (m.thaw z) :=
          Thaws.one ⟨mem_cons_self, hw, hheld⟩
        -- A zone held after the first thaw was held before it.
        have hback (z' : String) (hz' : (m.thaw z).host.held looks z' = true) : m.host.held looks z' = true := by
          by_cases hne : z' = z
          · rw [hne]
            exact hheld
          · have hsame : (m.thaw z).host.zones z' = m.host.zones z' := m.host.setCgroup_of_ne _ hne
            unfold Host.held leaf at hz' ⊢
            rwa [hsame] at hz'
        refine ⟨hone.trans (hthaws.imp fun z' h => ⟨mem_cons_of_mem z h.1, h.2.1, hback z' h.2.2⟩), ?_⟩
        rintro z' hz' hnw hh
        by_cases hne : z' = z
        · rw [hne]
          exact hthaws.thawed (thawed_thaw m z)
        · refine hall z' (mem_of_ne_of_mem hne hz') hnw ?_
          have hsame : (m.thaw z).host.zones z' = m.host.zones z' := m.host.setCgroup_of_ne _ hne
          unfold Host.held leaf at hh ⊢
          rwa [hsame]
      · next hheld =>
        obtain ⟨hthaws, hall⟩ := ih m
        refine ⟨hthaws.imp fun _ h => ⟨mem_cons_of_mem z h.1, h.2⟩, ?_⟩
        rintro z' (_ | ⟨_, hz'⟩) hnw hh
        · exact absurd hh hheld
        · exact hall z' hz' hnw hh

/-- A frozen zone whose volume waits is seen to wait, or is not seen to be frozen. -/
def Sees (looks : Looks) (h : Host) : Prop :=
  ∀ z, h.Running z → ¬ h.Thawed z → h.Waits z → looks.suspended z = true ∨ looks.held z = false

/-- A frozen zone whose volume has its key is seen to be frozen. -/
def Reaches (looks : Looks) (h : Host) : Prop :=
  ∀ z, h.Running z → ¬ h.Thawed z → h.HasKey z → looks.held z = true

lemma waits_iff {h : Host} : h.Waits z ↔ z ∈ h.mapped ∧ h.volumes z = .suspended := by
  unfold Host.Waits Host.volume
  split <;> simp_all

lemma mem_waiting {h : Host} : z ∈ h.waiting looks ↔ looks.suspended z = true ∧ h.Waits z := by
  rw [waits_iff]
  unfold waiting
  simp [mem_filter]
  tauto

lemma held_iff {h : Host} (hz : z ∈ h.names) :
    h.held looks z = true ↔ h.Running z ∧ ¬ h.Thawed z ∧ looks.held z = true := by
  unfold Host.held leaf Host.Running Host.Thawed
  by_cases hr : (h.zones z).running = true
  · simp only [hr, if_true, hz, true_and]
    cases hc : (h.zones z).cgroup with
    | unrecorded => simp
    | gone => simp
    | live freeze frozen => cases freeze <;> simp
  · simp [hr]

lemma thaw_spec (looks : Looks) {m : Machine} (hsees : Sees looks m.host) :
    Thaws (fun z => ¬ m.host.Waits z) m (thaw looks m) := by
  refine (thawEach_thaws looks _ m.host.names m).1.imp ?_
  rintro z ⟨hz, hnw, hheld⟩ hw
  obtain ⟨hr, hf, hl⟩ := (held_iff hz).mp hheld
  obtain hs | hs := hsees z hr hf hw
  · exact hnw (mem_waiting.mpr ⟨hs, hw⟩)
  · rw [hs] at hl
    cases hl

lemma thaw_reaches {m : Machine} (hreach : Reaches looks m.host) (hr : m.host.Running z) (hk : m.host.HasKey z) :
    (thaw looks m).host.Thawed z := by
  obtain ⟨hthaws, hall⟩ := thawEach_thaws looks (m.host.waiting looks) m.host.names m
  by_cases hf : m.host.Thawed z
  · exact hthaws.thawed hf
  · refine hall z hr.1 ?_ ((held_iff hr.1).mpr ⟨hr, hf, hreach z hr hf hk⟩)
    intro hw
    have hw := (mem_waiting.mp hw).2
    obtain hk | hk := hk
    · rw [Host.Waits, hk] at hw
      cases hw
    · rw [Host.Waits, hk] at hw
      cases hw

section Freeze

variable {a : SealAnswers} {m0 m m' : Machine} {done : List String}

/-- The zones that are asked to freeze, up to the first that cannot be, and whether there is one. -/
def asked (a : SealAnswers) (h : Host) : List String → List String × Bool
  | [] => ([], false)
  | zone :: zones =>
    if (h.zones zone).running then
      match (h.zones zone).cgroup with
      | .unrecorded => ([], true)
      | .gone => asked a h zones
      | .live _ _ =>
        match a.freeze zone with
        | .ok () => (zone :: (asked a h zones).1, (asked a h zones).2)
        | .error _ => ([], true)
    else asked a h zones

/-- The leaves of a list's zones have changed by `f`, and nothing else happened. -/
structure Sets (f : Cgroup → Cgroup) (done : List String) (m m' : Machine) : Prop where
  host : m'.host = { m.host with zones := m'.host.zones }
  thaws : m'.thaws = m.thaws
  set : ∀ z ∈ done, m'.host.zones z = { m.host.zones z with cgroup := f (m.host.zones z).cgroup }
  rest : ∀ z ∉ done, m'.host.zones z = m.host.zones z

lemma Sets.refl (f : Cgroup → Cgroup) (m : Machine) : Sets f [] m m where
  host := rfl
  thaws := rfl
  set := fun _ hz => absurd hz not_mem_nil
  rest := fun _ _ => rfl

lemma Sets.snoc {f : Cgroup → Cgroup} (hf : ∀ c, f (f c) = f c) (h : Sets f done m0 m) (z : String) :
    Sets f (done ++ [z]) m0 { m with host := m.host.setCgroup z (f (m.host.zones z).cgroup) } where
  host := by
    rw [h.host]
    rfl
  thaws := h.thaws
  set := by
    intro z' hz'
    by_cases hne : z' = z
    · subst hne
      rw [setCgroup_self]
      by_cases hd : z' ∈ done
      · rw [h.set z' hd, hf]
      · rw [h.rest z' hd]
    · rw [setCgroup_of_ne _ _ hne]
      refine h.set z' ?_
      simpa [hne] using hz'
  rest := by
    intro z' hz'
    rw [mem_append, mem_singleton, not_or] at hz'
    rw [setCgroup_of_ne _ _ hz'.2]
    exact h.rest z' hz'.1

abbrev Froze := Sets (Cgroup.setFreeze true)

abbrev FrozeThrough := Sets (fun _ => .live true true)

lemma setFreeze_true_true (c : Cgroup) : (c.setFreeze true).setFreeze true = c.setFreeze true := by
  cases c <;> rfl

lemma Sets.freeze (h : Froze done m0 m) (z : String) : Froze (done ++ [z]) m0 (m.freeze z) :=
  h.snoc setFreeze_true_true z

lemma Sets.running_eq (h : Froze done m0 m) (z : String) : (m.host.zones z).running = (m0.host.zones z).running := by
  by_cases hz : z ∈ done
  · rw [h.set z hz]
  · rw [h.rest z hz]

lemma Sets.cgroup_eq (h : Froze done m0 m) (z : String) : (m.host.zones z).cgroup = (m0.host.zones z).cgroup ∨
      (m.host.zones z).cgroup = (m0.host.zones z).cgroup.setFreeze true := by
  by_cases hz : z ∈ done
  · exact .inr (by rw [h.set z hz])
  · exact .inl (by rw [h.rest z hz])

lemma freezeEach_spec (zones : List String) (h : Froze done m0 m) :
    ∃ m1, Froze (done ++ (asked a m0.host zones).1) m0 m1 ∧ (((asked a m0.host zones).2 = true ∧
        ∃ why, freezeEach a zones done m = (undo (done ++ (asked a m0.host zones).1) m1, .error why)) ∨
      ((asked a m0.host zones).2 = false ∧
        freezeEach a zones done m = (m1, .ok (done ++ (asked a m0.host zones).1)))) := by
  induction zones generalizing done m with
  | nil => exact ⟨m, by simpa [asked] using h, Or.inr ⟨rfl, by simp [freezeEach, asked]⟩⟩
  | cons z zones ih =>
    unfold freezeEach asked
    rw [h.running_eq z]
    by_cases hr : (m0.host.zones z).running = true
    · rw [if_pos hr, if_pos hr]
      cases hc : (m0.host.zones z).cgroup with
      | unrecorded =>
        have hcm : (m.host.zones z).cgroup = .unrecorded := by
          rcases h.cgroup_eq z with hcm | hcm <;> rw [hcm, hc]
          rfl
        rw [hcm]
        exact ⟨m, by simpa using h, Or.inl ⟨rfl, .noCgroup z, by simp⟩⟩
      | gone =>
        have hcm : (m.host.zones z).cgroup = .gone := by
          rcases h.cgroup_eq z with hcm | hcm <;> rw [hcm, hc]
          rfl
        rw [hcm]
        exact ih h
      | live freeze frozen =>
        obtain ⟨f, g, hcm⟩ : ∃ f g, (m.host.zones z).cgroup = .live f g := by
          obtain hcm | hcm := h.cgroup_eq z
          · exact ⟨_, _, hcm.trans hc⟩
          · exact ⟨_, _, by rw [hcm, hc]; rfl⟩
        rw [hcm]
        cases a.freeze z with
        | error e => exact ⟨m, by simpa using h, Or.inl ⟨rfl, .freezeFailed z e, by simp⟩⟩
        | ok _ =>
          have hih := ih (h.freeze z)
          simpa only [append_assoc, singleton_append] using hih
    · rw [if_neg hr, if_neg hr]
      exact ih h

lemma asked_all {h : Host} {zones : List String} (hok : (asked a h zones).2 = false) {z : String}
    (hz : z ∈ zones) (hr : (h.zones z).running = true) (hg : (h.zones z).cgroup ≠ .gone) :
    z ∈ (asked a h zones).1 := by
  induction zones with
  | nil => exact absurd hz not_mem_nil
  | cons y zones ih =>
    unfold asked at hok ⊢
    obtain rfl | hz := mem_cons.mp hz
    · rw [if_pos hr] at hok ⊢
      split at hok
      · cases hok
      · next hc => exact absurd hc hg
      · split at hok
        · exact mem_cons_self
        · cases hok
    · by_cases hy : (h.zones y).running = true
      · rw [if_pos hy] at hok ⊢
        split at hok
        · cases hok
        · exact ih hok hz
        · split at hok
          · exact mem_cons_of_mem y (ih hok hz)
          · cases hok
      · rw [if_neg hy] at hok ⊢
        exact ih hok hz

def Refuses (a : SealAnswers) (h : Host) : Prop :=
  (asked a h h.names).2 = true ∨ ∃ z ∈ (asked a h h.names).1, a.frozen z = false

lemma freezeAll_refused (h : Refuses a m.host) : ∃ m1 why, Froze (asked a m.host m.host.names).1 m m1 ∧
    freezeAll a m = (undo (asked a m.host m.host.names).1 m1, .error why) := by
  obtain ⟨m1, hfroze, ⟨-, why, heq⟩ | ⟨hok, heq⟩⟩ := freezeEach_spec (a := a) m.host.names (Sets.refl _ m)
  · exact ⟨m1, why, hfroze, by rw [freezeAll, heq]; rfl⟩
  · obtain ⟨z, hz, hslow⟩ := h.resolve_left (by rw [hok]; exact Bool.false_ne_true)
    have hfind : ((asked a m.host m.host.names).1.find? (fun zone => !a.frozen zone)).isSome = true :=
      List.find?_isSome.mpr ⟨z, hz, by rw [hslow]; rfl⟩
    obtain ⟨slow, hfind⟩ := Option.isSome_iff_exists.mp hfind
    refine ⟨m1, .slowFreeze slow, hfroze, ?_⟩
    rw [freezeAll, heq]
    dsimp only
    rw [nil_append, hfind]

lemma settleFrozen_spec (done rest : List String) {m0 m : Machine} (h : FrozeThrough done m0 m) :
    FrozeThrough (done ++ rest) m0 (rest.foldl Machine.settleFrozen m) := by
  induction rest generalizing done m with
  | nil => simpa using h
  | cons z rest ih =>
    have hone : FrozeThrough (done ++ [z]) m0 (m.settleFrozen z) :=
      Sets.snoc (f := fun _ => .live true true) (fun _ => rfl) h z
    simpa using ih (done ++ [z]) hone

lemma freezeAll_ok (h : ¬ Refuses a m.host) : ∃ m', FrozeThrough (asked a m.host m.host.names).1 m m' ∧
    freezeAll a m = (m', .ok (asked a m.host m.host.names).1) := by
  obtain ⟨hall, hfrozen⟩ := not_or.mp h
  obtain ⟨m1, hfroze, ⟨hr, -⟩ | ⟨hok, heq⟩⟩ := freezeEach_spec (a := a) m.host.names (Sets.refl _ m)
  · exact absurd hr hall
  · have hfind : (asked a m.host m.host.names).1.find? (fun zone => !a.frozen zone) = none := by
      rw [List.find?_eq_none]
      intro z hz hslow
      exact hfrozen ⟨z, hz, by simpa using hslow⟩
    have hthrough := settleFrozen_spec [] (asked a m.host m.host.names).1 (Sets.refl _ m1)
    refine ⟨_, ⟨?_, hthrough.thaws.trans hfroze.thaws, ?_, ?_⟩, ?_⟩
    · rw [hthrough.host, hfroze.host]
    · intro z hz
      rw [hthrough.set z hz, hfroze.set z hz]
    · intro z hz
      rw [hthrough.rest z hz, hfroze.rest z hz]
    · rw [freezeAll, heq]
      dsimp only
      rw [nil_append, hfind]

lemma Sets.running_frozen (h : FrozeThrough (asked a m.host m.host.names).1 m m')
    (hok : ¬ Refuses a m.host) {z : String} (hz : m'.host.Running z) :
    m'.host.Frozen z := by
  obtain ⟨hn, hr, hg⟩ := hz
  have hnames : m'.host.names = m.host.names := by rw [h.host]
  rw [hnames] at hn
  by_cases hin : z ∈ (asked a m.host m.host.names).1
  · rw [Host.Frozen, h.set z hin]
  · rw [h.rest z hin] at hr hg
    exact absurd (asked_all (Bool.eq_false_iff.mpr (not_or.mp hok).1) hn hr hg) hin

end Freeze

section Seal

variable {a : SealAnswers} {m m' : Machine}

/-- Volumes may have been suspended, and nothing else happened. -/
structure Suspends (m m' : Machine) : Prop where
  host : m'.host = { m.host with volumes := m'.host.volumes }
  thaws : m'.thaws = m.thaws
  kept : ∀ z, m.host.volumes z = .suspended → m'.host.volumes z = .suspended

lemma suspendEach_spec (a : SealAnswers) (zones : List String) (wiped : Bool) (m : Machine) :
    Suspends m (suspendEach a zones wiped m).1 ∧ ((suspendEach a zones wiped m).2.2 = .ok () →
        ∀ z ∈ zones, (suspendEach a zones wiped m).1.host.volumes z = .suspended) := by
  induction zones generalizing wiped m with
  | nil => exact ⟨⟨rfl, rfl, fun _ h => h⟩, fun _ z hz => absurd hz not_mem_nil⟩
  | cons y zones ih =>
    unfold suspendEach
    split
    · next hs =>
      obtain ⟨hsus, hall⟩ := ih wiped m
      refine ⟨hsus, fun hok z hz => ?_⟩
      obtain rfl | hz := mem_cons.mp hz
      · simp only [Bool.and_eq_true, decide_eq_true_eq] at hs
        exact hsus.kept z hs.2
      · exact hall hok z hz
    · cases a.suspend y with
      | error e => exact ⟨⟨rfl, rfl, fun _ h => h⟩, nofun⟩
      | ok _ =>
        obtain ⟨hsus, hall⟩ := ih true { m with host := m.host.setVolume y .suspended }
        have hself : (m.host.setVolume y .suspended).volumes y = .suspended := Function.update_self ..
        refine ⟨⟨?_, hsus.thaws, ?_⟩, fun hok z hz => ?_⟩
        · rw [hsus.host]
          rfl
        · intro z hz
          refine hsus.kept z ?_
          by_cases hy : z = y
          · rw [hy]
            exact hself
          · exact (Function.update_of_ne hy ..).trans hz
        · obtain rfl | hz := mem_cons.mp hz
          · exact hsus.kept z hself
          · exact hall hok z hz

lemma suspendAll_spec (a : SealAnswers) (m : Machine) :
    (suspendAll a m).1.host.names = m.host.names ∧ (suspendAll a m).1.host.zones = m.host.zones ∧
      (suspendAll a m).1.thaws = m.thaws ∧
      (∀ why, (suspendAll a m).2.2 = .error why → (suspendAll a m).1.host.state = m.host.state) ∧
      ((suspendAll a m).2.2 = .ok () → (suspendAll a m).1.host.state = .suspended ∧
        ∀ z ∈ (suspendAll a m).1.host.mapped, (suspendAll a m).1.host.volumes z = .suspended) := by
  unfold suspendAll
  cases a.syncOnSuspend with
  | error e => exact ⟨rfl, rfl, rfl, fun _ _ => rfl, nofun⟩
  | ok _ =>
    obtain ⟨m0, hm0⟩ : ∃ m0 : Machine, m0 = { m with host := { m.host with syncOnSuspend := false } } := ⟨_, rfl⟩
    dsimp only
    rw [← hm0]
    obtain ⟨hsus, hall⟩ := suspendEach_spec a m.host.mapped false m0
    obtain ⟨⟨m1, wiped, r⟩, hr⟩ : ∃ r, r = suspendEach a m.host.mapped false m0 := ⟨_, rfl⟩
    rw [← hr] at hsus hall ⊢
    have hnames : m1.host.names = m.host.names := by rw [hsus.host, hm0]
    have hzones : m1.host.zones = m.host.zones := by rw [hsus.host, hm0]
    have hthaws : m1.thaws = m.thaws := by rw [hsus.thaws, hm0]
    have hstate : m1.host.state = m.host.state := by rw [hsus.host, hm0]
    have hmapped : m1.host.mapped = m.host.mapped := by rw [hsus.host, hm0]
    cases r with
    | error why => exact ⟨hnames, hzones, hthaws, fun _ _ => hstate, nofun⟩
    | ok _ =>
      cases a.suspendState with
      | error e => exact ⟨hnames, hzones, hthaws, fun _ _ => hstate, nofun⟩
      | ok _ => exact ⟨hnames, hzones, hthaws, nofun, fun _ => ⟨rfl, fun z hz => hall rfl z (hmapped ▸ hz)⟩⟩

/-- The machine when a seal that has frozen every zone calls `thaw`. -/
def atThaw (a : SealAnswers) (m : Machine) : Option Machine :=
  if a.locked then none
  else match freezeAll a m with
    | (_, .error _) => none
    | (m, .ok _) =>
      match suspendAll a m with
      | (m, _, .error _) => some m
      | (_, _, .ok ()) => none

structure SealMeets (a : SealAnswers) (m : Machine) : Prop where
  /-- It leaves a zone as it is only if that is right. -/
  updating : a.locked = true → ∀ z, m.host.Running z → m.host.HasKey z → m.host.Thawed z
  untouched : a.locked = false → Refuses a m.host → ∀ z ∉ (asked a m.host m.host.names).1,
    m.host.Running z → m.host.HasKey z → m.host.Thawed z
  /-- No zone that waits was asked to freeze before one that cannot be. -/
  undone : a.locked = false → Refuses a m.host → ∀ z ∈ (asked a m.host m.host.names).1, ¬ m.host.Waits z
  sees : ∀ m', atThaw a m = some m' → Sees a.thaw m'.host
  reaches : ∀ m', atThaw a m = some m' → Reaches a.thaw m'.host

structure Sealed (h : Host) : Prop where
  volumes : ∀ z ∈ h.mapped, h.volumes z = .suspended
  state : h.state = .suspended
  frozen : ∀ z, h.Running z → h.Frozen z

structure Refused (h h' : Host) : Prop where
  state : h'.state = h.state
  thawed : ∀ z, h'.Running z → h'.HasKey z → h'.Thawed z

structure SealHolds (a : SealAnswers) (m : Machine) : Prop where
  unwoken : (sealAll a m).1.Unwoken
  sealed : ∀ zones, (sealAll a m).2 = .ok zones → Sealed (sealAll a m).1.host
  refused : ∀ why, (sealAll a m).2 = .error why → Refused m.host (sealAll a m).1.host

lemma Thaws.running {P : String → Prop} (h : Thaws P m m') {z : String} (hz : m'.host.Running z) :
    m.host.Running z := by
  obtain ⟨hn, hr, hg⟩ := hz
  have hnames : m'.host.names = m.host.names := by rw [h.host]
  refine ⟨hnames ▸ hn, ?_, ?_⟩
  · obtain he | ⟨-, he⟩ := h.zones z
    · exact he ▸ hr
    · rw [he] at hr
      exact hr
  · intro hc
    obtain he | ⟨-, he⟩ := h.zones z
    · exact hg (by rw [he, hc])
    · exact hg (by rw [he, hc]; rfl)

lemma Thaws.hasKey {P : String → Prop} (h : Thaws P m m') {z : String} (hz : m'.host.HasKey z) : m.host.HasKey z := by
  rwa [Host.HasKey, h.volume z] at hz

lemma refused_thaw {looks : Looks} (hsees : Sees looks m'.host) (hreach : Reaches looks m'.host)
    (hm : m'.Unwoken) (hstate : m'.host.state = m.host.state) :
    (thaw looks m').Unwoken ∧ Refused m.host (thaw looks m').host := by
  have hthaws := thaw_spec looks hsees
  refine ⟨hthaws.unwoken hm (fun _ h => h), ?_, ?_⟩
  · rw [hthaws.host]
    exact hstate
  · exact fun z hr hk => thaw_reaches hreach (hthaws.running hr) (hthaws.hasKey hk)

lemma countLeftWaiting_host (a : SealAnswers) (wiped : Bool) (m : Machine) :
    ∃ n, (countLeftWaiting a wiped m).host = { m.host with leftWaiting := n } ∧
      (countLeftWaiting a wiped m).thaws = m.thaws := by
  unfold countLeftWaiting
  split
  · exact ⟨_, rfl, rfl⟩
  · exact ⟨m.host.leftWaiting, rfl, rfl⟩

lemma refused_count {h : Host} (wiped : Bool) (hm : m.Unwoken) (hr : Refused h m.host) :
    (countLeftWaiting a wiped m).Unwoken ∧ Refused h (countLeftWaiting a wiped m).host := by
  obtain ⟨n, hhost, hthaws⟩ := countLeftWaiting_host a wiped m
  rw [Machine.Unwoken, hthaws, hhost]
  exact ⟨hm, hr.state, hr.thawed⟩

lemma refused_freeze (hmeets : SealMeets a m) (hm : m.Unwoken) (hl : a.locked = false)
    (hr : Refuses a m.host) {m1 : Machine} (hfroze : Froze (asked a m.host m.host.names).1 m m1) :
    (undo (asked a m.host m.host.names).1 m1).Unwoken ∧
      Refused m.host (undo (asked a m.host m.host.names).1 m1).host := by
  obtain ⟨hthaws, hdone⟩ := undo_thaws (asked a m.host m.host.names).1 m1
  have hvol (z : String) : m1.host.volume z = m.host.volume z := by
    rw [hfroze.host]
    rfl
  have hm1 : m1.Unwoken := by
    rw [Machine.Unwoken, hfroze.thaws]
    exact hm
  refine ⟨hthaws.unwoken hm1 ?_, ?_, ?_⟩
  · intro z hz hw
    rw [Host.Waits, hvol] at hw
    exact hmeets.undone hl hr z hz hw
  · rw [hthaws.host]
    rw [hfroze.host]
  · intro z hrun hkey
    by_cases hz : z ∈ (asked a m.host m.host.names).1
    · exact hdone z hz
    · have hrun1 := hthaws.running hrun
      have hkey1 := hthaws.hasKey hkey
      have hnames : m1.host.names = m.host.names := by rw [hfroze.host]
      have hsame := hfroze.rest z hz
      rw [Host.HasKey, hvol] at hkey1
      rw [Host.Running, hnames, hsame] at hrun1
      refine hthaws.thawed ?_
      rw [Host.Thawed, hsame]
      exact hmeets.untouched hl hr z hz hrun1 hkey1

lemma sealAll_holds (hmeets : SealMeets a m) (hm : m.Unwoken) : SealHolds a m := by
  have hsees := hmeets.sees
  have hreaches := hmeets.reaches
  unfold atThaw at hsees hreaches
  by_cases hl : a.locked = true
  · have heq : sealAll a m = (m, .error .updating) := by rw [sealAll, if_pos hl]
    refine ⟨by rwa [heq], fun zones hok => ?_, fun why _ => ?_⟩
    · rw [heq] at hok
      cases hok
    · rw [heq]
      exact ⟨rfl, hmeets.updating hl⟩
  rw [if_neg hl] at hsees hreaches
  by_cases hr : Refuses a m.host
  · obtain ⟨m1, why, hfroze, hf⟩ := freezeAll_refused hr
    have heq : sealAll a m = (undo (asked a m.host m.host.names).1 m1, .error why) := by
      rw [sealAll, if_neg hl, hf]
    obtain ⟨hun, href⟩ := refused_freeze hmeets hm (Bool.eq_false_iff.mpr hl) hr hfroze
    refine ⟨by rwa [heq], fun zones hok => ?_, fun _ _ => by rwa [heq]⟩
    rw [heq] at hok
    cases hok
  · obtain ⟨m1, hfroze, hf⟩ := freezeAll_ok hr
    obtain ⟨hnames, hzones, hthaws, herr, hok⟩ := suspendAll_spec a m1
    obtain ⟨⟨m2, wiped, r⟩, hs⟩ : ∃ r, r = suspendAll a m1 := ⟨_, rfl⟩
    rw [← hs] at hnames hzones hthaws herr hok
    rw [hf] at hsees hreaches
    dsimp only at hsees hreaches
    rw [← hs] at hsees hreaches
    have hm2 : m2.Unwoken := by
      rw [Machine.Unwoken, hthaws, hfroze.thaws]
      exact hm
    have hstate1 : m1.host.state = m.host.state := by rw [hfroze.host]
    cases r with
    | error why =>
      have heq : sealAll a m = (countLeftWaiting a wiped (thaw a.thaw m2), .error why) := by
        rw [sealAll, if_neg hl, hf]
        dsimp only
        rw [← hs]
      obtain ⟨hun, href⟩ := refused_thaw (hsees m2 rfl) (hreaches m2 rfl) hm2
        ((herr why rfl).trans hstate1)
      obtain ⟨hun, href⟩ := refused_count (a := a) wiped hun href
      refine ⟨by rwa [heq], fun zones h => ?_, fun _ _ => by rwa [heq]⟩
      rw [heq] at h
      cases h
    | ok _ =>
      have heq : sealAll a m = (m2, .ok (asked a m.host m.host.names).1) := by
        rw [sealAll, if_neg hl, hf]
        dsimp only
        rw [← hs]
      obtain ⟨hstate, hvolumes⟩ := hok rfl
      refine ⟨by rwa [heq], fun zones _ => ?_, fun why h => ?_⟩
      · rw [heq]
        refine ⟨hvolumes, hstate, fun z hz => ?_⟩
        rw [Host.Running, hnames, hzones] at hz
        rw [Host.Frozen, hzones]
        exact hfroze.running_frozen hr hz
      · rw [heq] at h
        cases h

end Seal

inductive Call
  | sealAll (a : SealAnswers)
  | resumeState (ran : Ran) (sync : Bool) (looks : Looks)
  | resumeZone (zone : String) (lookState : Bool) (ran : Ran) (looks : Looks)
  | thaw (looks : Looks)
  | giveUpZone (zone : String) (ran : Ran) (looks : Looks)
  | between (host : Host)

def Call.run (m : Machine) : Call → Machine
  | .sealAll a => (Suspend.sealAll a m).1
  | .resumeState ran sync looks => (Suspend.resumeState ran sync looks m).1
  | .resumeZone zone lookState ran looks => (Suspend.resumeZone zone lookState ran looks m).1
  | .thaw looks => Suspend.thaw looks m
  | .giveUpZone zone ran looks => (Suspend.giveUpZone zone ran looks m).1
  | .between host => { m with host }

/-- When a call keeps a zone without its key asleep and wakes the others. -/
def Call.Meets (c : Call) (m : Machine) : Prop :=
  match c with
  | .sealAll a => SealMeets a m
  | .resumeState .ok _ looks => Sees looks m.host
  | .thaw looks => Sees looks m.host
  | _ => True

/-- No zone without its key was woken so far, and a seal does what it is for. -/
def Call.Holds (c : Call) (m : Machine) : Prop :=
  (c.run m).Unwoken ∧
    match c with
    | .sealAll a => SealHolds a m
    | _ => True

lemma thawZone_unwoken {zone : String} {m : Machine} (hm : m.Unwoken) (hw : ¬ m.host.Waits zone) :
    (thawZone looks zone m).Unwoken := by
  unfold thawZone
  split
  · exact (Thaws.one (P := (· = zone)) rfl).unwoken hm (fun _ h => h ▸ hw)
  · exact hm

lemma not_waits_setVolume (h : Host) (zone : String) {v : Mapping} (hv : v ≠ .suspended) :
    ¬ (h.setVolume zone v).Waits zone := by
  intro hw
  have hs := (waits_iff.mp hw).2
  exact hv ((Function.update_self ..).symm.trans hs)

lemma Call.run_unwoken {c : Call} {m : Machine} (hm : m.Unwoken) (hmeets : c.Meets m) : (c.run m).Unwoken := by
  cases c with
  | sealAll a => exact (sealAll_holds hmeets hm).unwoken
  | resumeState ran sync looks =>
    cases ran with
    | ok =>
      obtain ⟨m', hm'⟩ : ∃ m' : Machine, m' = { m with host := { m.host with
        state := .keyed, syncOnSuspend := m.host.syncOnSuspend || sync } } := ⟨_, rfl⟩
      have hsees : Sees looks m'.host := by
        rw [hm']
        exact hmeets
      have hun : m'.Unwoken := by
        rw [hm']
        exact hm
      change (Suspend.thaw looks _).Unwoken
      rw [← hm']
      exact (thaw_spec looks hsees).unwoken hun (fun _ h => h)
    | wrong | failed done => exact hm
  | resumeZone zone lookState ran looks =>
    change (Suspend.resumeZone zone lookState ran looks m).1.Unwoken
    unfold Suspend.resumeZone
    split_ifs
    · exact hm
    · cases ran with
      | ok =>
        exact thawZone_unwoken (m := { m with host := m.host.setVolume zone .keyed }) hm
          (not_waits_setVolume _ _ nofun)
      | wrong => exact hm
      | failed done => cases done <;> exact hm
    · exact hm
  | thaw looks => exact (thaw_spec looks hmeets).unwoken hm (fun _ h => h)
  | giveUpZone zone ran looks =>
    cases ran with
    | ok =>
      exact thawZone_unwoken (m := { m with host := m.host.setVolume zone .failed }) hm
        (not_waits_setVolume _ _ nofun)
    | wrong => exact hm
    | failed done => cases done <;> exact hm
  | between host => exact hm

theorem run_keeps_waiting_asleep (host : Host) (calls : List Call)
    (hmeets : Along Call.run Call.Meets calls ⟨host, []⟩) :
    Along Call.run Call.Holds calls ⟨host, []⟩ := by
  refine Along.imp (I := Machine.Unwoken) ?_ (fun w hw => absurd hw not_mem_nil) hmeets
  intro c m hm hc
  have hun := Call.run_unwoken hm hc
  refine ⟨⟨hun, ?_⟩, hun⟩
  cases c with
  | sealAll a => exact sealAll_holds hc hm
  | _ => trivial

def allLooks : Looks := ⟨fun _ => true, fun _ => true⟩

/-- A seal in which everything goes well but the freezing of the zones in `slow`. -/
def sealSlow (slow : List String) : SealAnswers where
  locked := false
  freeze := fun _ => .ok ()
  frozen := fun z => z ∉ slow
  syncOnSuspend := .ok ()
  looks := fun _ => true
  suspend := fun _ => .ok ()
  suspendState := .ok ()
  thaw := allLooks
  count := true

def twoZones : Host where
  names := ["home", "play"]
  zones := fun _ => ⟨true, .live false false⟩
  mapped := ["home"]
  volumes := fun _ => .keyed
  state := .keyed
  syncOnSuspend := true
  leftWaiting := 0

def sleptOnce : List Call := [.sealAll (sealSlow []), .resumeState .ok true allLooks]

lemma sees_allLooks (h : Host) : Sees allLooks h := fun _ _ _ _ => Or.inl rfl

lemma sealMeets_first : SealMeets (sealSlow []) ⟨twoZones, []⟩ := by
  have hnot : ¬ Refuses (sealSlow []) twoZones := by
    rintro (h | ⟨z, -, h⟩)
    · cases h
    · cases h
  refine ⟨nofun, fun _ h => absurd h hnot, fun _ h => absurd h hnot, fun m' h => ?_, fun m' h => ?_⟩
  · cases h
  · cases h

theorem run_keeps_waiting_asleep_once : Along Call.run Call.Holds sleptOnce ⟨twoZones, []⟩ ∧
    (sleptOnce.foldl Call.run ⟨twoZones, []⟩).host.Waits "home" :=
  ⟨run_keeps_waiting_asleep twoZones sleptOnce ⟨sealMeets_first, sees_allLooks _, trivial⟩, by rfl⟩

def sleptTwice : List Call := sleptOnce ++ [Call.sealAll (sealSlow ["play"])]

theorem second_seal_wakes_waiting : (∀ z ∈ twoZones.mapped, twoZones.volumes z ≠ .suspended) ∧
    (sleptOnce.foldl Call.run ⟨twoZones, []⟩).host.state = .keyed ∧
    (sleptTwice.foldl Call.run ⟨twoZones, []⟩).thaws = [("play", none), ("home", some .suspended), ("play", none)] ∧
    ¬ Along Call.run Call.Holds sleptTwice ⟨twoZones, []⟩ := by
  have hthaws : (sleptTwice.foldl Call.run ⟨twoZones, []⟩).thaws =
      [("play", none), ("home", some .suspended), ("play", none)] := by rfl
  refine ⟨by decide, by rfl, hthaws, ?_⟩
  rintro ⟨-, -, ⟨hun, -⟩, -⟩
  have hin : ("home", some Mapping.suspended) ∈ (sleptTwice.foldl Call.run ⟨twoZones, []⟩).thaws := by
    decide
  exact hun _ hin rfl

end Kryptik.Kryptikd.Suspend
