import Mathlib

namespace Kryptik.Kryptikd.Files

open List Function Relation

abbrev Bytes := List UInt8

/-- A process that is not in `/proc`, or how far its call of `write_atomic` is. A file it has open is known by
its inode. -/
inductive Pc (P : Type)
  | dead
  | idle
  | listing
  /-- the temporary of `q`, not in `/proc`, is to be removed -/
  | sweeping (q : P)
  | opening
  /-- with this much to be written; the mode, the owner and the sync come behind it -/
  | writing (ino : ℕ) (rest : Bytes)
  | renamed
  | failed (made : Option ℕ)

structure Ended where
  whole : Bytes
  ok : Bool
  renamed : Bool
  unlinked : Bool
  /-- the file the call made is still at its temporary's name -/
  left : Bool

/-- The processes that write one path, and its directory: the path, and the temporary named for each process.
What the calls of a process write, what the path has shown and which calls returned is history. -/
structure State (P : Type) where
  pc : P → Pc P
  path : Option ℕ
  tmp : P → Option ℕ
  data : ℕ → Bytes
  next : ℕ
  whole : P → Bytes
  renamed : P → Bool
  begun : List Bytes
  shown : List Bytes
  ended : List Ended

variable {P : Type}

def State.Own (s : State P) (p : P) (ino : ℕ) : Prop :=
  ino < s.next ∧ s.path ≠ some ino ∧ ∀ q, s.tmp q = some ino ↔ q = p

def State.Unmade (s : State P) (p : P) : Prop := s.whole p ∈ s.begun ∧ s.renamed p = false

def State.Fine (s : State P) (p : P) : Pc P → Prop
  | .dead | .idle => True
  | .sweeping q => s.pc q = .dead ∧ s.Unmade p
  | .writing ino rest => s.Own p ino ∧ s.data ino ++ rest = s.whole p ∧ s.Unmade p
  | .renamed => s.whole p ∈ s.shown
  | _ => s.Unmade p

def Ended.Proper (shown : List Bytes) (e : Ended) : Prop :=
  (e.ok = true → e.whole ∈ shown) ∧ (e.ok = false → e.renamed = false ∧ (e.unlinked = true → e.left = false))

structure Sound (initial : Option Bytes) (s : State P) : Prop where
  old : ∀ ino, s.path = some ino ∨ (∃ q, s.tmp q = some ino) → ino < s.next
  path : s.path.map s.data = initial ∨ ∃ whole ∈ s.begun, s.path.map s.data = some whole
  fine : ∀ p, s.Fine p (s.pc p)
  ended : ∀ e ∈ s.ended, e.Proper s.shown

variable {p q : P} {s s' : State P} {pc : Pc P} {ino : ℕ} {initial : Option Bytes}

lemma Sound.fine_of (h : Sound initial s) (hpc : s.pc p = pc) : s.Fine p pc := hpc ▸ h.fine p

lemma Sound.unswept (h : Sound initial s) (hpc : s.pc p ≠ .dead) (q : P) : s.pc q ≠ .sweeping p :=
  fun hq => hpc (h.fine_of hq).1

lemma State.Own.unique (h : s.Own p ino) (h' : s.Own q ino) : q = p := (h.2.2 q).mp ((h'.2.2 q).mpr rfl)

lemma map_data_congr {path : Option ℕ} {data data' : ℕ → Bytes} (h : ∀ ino, path = some ino → data' ino = data ino) :
    path.map data' = path.map data := by
  cases path with
  | none => rfl
  | some ino => exact congrArg some (h ino rfl)

/-- The directory changes, or the history grows, and no open file is touched. -/
lemma Sound.edit (h : Sound initial s) (hpc : s'.pc = s.pc) (hbegun : s.begun ⊆ s'.begun) (hshown : s.shown ⊆ s'.shown)
    (hended : s'.ended = s.ended) (hold : ∀ ino, s'.path = some ino ∨ (∃ q, s'.tmp q = some ino) → ino < s'.next)
    (hpath : s'.path.map s'.data = s.path.map s.data ∨ ∃ whole ∈ s'.begun, s'.path.map s'.data = some whole)
    (hcall : ∀ q, s.pc q = .idle ∨ s'.whole q = s.whole q ∧ s'.renamed q = s.renamed q)
    (hopen : ∀ q ino rest, s.pc q = .writing ino rest → s.Own q ino → s'.Own q ino ∧ s'.data ino = s.data ino) :
    Sound initial s' := by
  refine ⟨hold, ?_, fun q => ?_, fun e he => ?_⟩
  · obtain hpath | hpath := hpath
    · rw [hpath]
      exact h.path.imp_right fun ⟨whole, hin, hw⟩ => ⟨whole, hbegun hin, hw⟩
    · exact .inr hpath
  · have hq := h.fine q
    rw [hpc]
    obtain hidle | ⟨hwhole, hrenamed⟩ := hcall q
    · rw [hidle]
      trivial
    have hunmade (hu : s.Unmade q) : s'.Unmade q := ⟨hwhole ▸ hbegun hu.1, hrenamed.trans hu.2⟩
    cases hsame : s.pc q with
    | dead | idle => trivial
    | sweeping x => rw [hsame] at hq; exact ⟨hpc ▸ hq.1, hunmade hq.2⟩
    | writing ino rest =>
      rw [hsame] at hq
      obtain ⟨hown, hdata⟩ := hopen q ino rest hsame hq.1
      exact ⟨hown, by rw [hdata, hwhole]; exact hq.2.1, hunmade hq.2.2⟩
    | renamed => rw [hsame] at hq; exact hshown (hwhole ▸ hq : s'.whole q ∈ s.shown)
    | listing | opening | failed made => rw [hsame] at hq; exact hunmade hq
  · have hproper := h.ended e (hended ▸ he)
    exact ⟨fun hok => hshown (hproper.1 hok), hproper.2⟩

def State.append (s : State P) (ino : ℕ) (bytes : Bytes) : State P :=
  { s with data := update s.data ino (s.data ino ++ bytes) }

lemma Sound.append (h : Sound initial s) (hown : s.Own p ino) (hpc : s.pc p = .idle) (bytes : Bytes) :
    Sound initial (s.append ino bytes) := by
  have hdata (i : ℕ) (hi : i ≠ ino) : (s.append ino bytes).data i = s.data i := update_of_ne hi _ _
  refine h.edit rfl (List.Subset.refl _) (List.Subset.refl _) rfl h.old
    (.inl (map_data_congr fun i hp => hdata i fun hi => hown.2.1 (hi ▸ hp))) (fun _ => .inr ⟨rfl, rfl⟩)
    fun x i rest hw hx => ⟨hx, hdata i ?_⟩
  rintro rfl
  rw [hown.unique hx, hpc] at hw
  cases hw

variable [DecidableEq P]

namespace State

def move (s : State P) (p : P) (pc : Pc P) : State P := { s with pc := update s.pc p pc }

def begin (s : State P) (p : P) (whole : Bytes) : State P :=
  { s with
    whole := update s.whole p whole
    renamed := update s.renamed p false
    begun := s.begun ++ [whole] }

def unlink (s : State P) (q : P) (done : Bool) : State P :=
  { s with tmp := if done then update s.tmp q none else s.tmp }

def create (s : State P) (p : P) : State P :=
  { s with
    tmp := update s.tmp p (some s.next)
    data := update s.data s.next []
    next := s.next + 1 }

def rename (s : State P) (p : P) (ino : ℕ) : State P :=
  { s with
    path := some ino
    tmp := update s.tmp p none
    renamed := update s.renamed p true
    shown := s.shown ++ [s.data ino] }

def returns (s : State P) (p : P) (ok unlinked left : Bool) : State P :=
  { s.move p .idle with ended := s.ended ++ [⟨s.whole p, ok, s.renamed p, unlinked, left⟩] }

end State

/-- A step of process `p`. No process takes the pid of one whose temporary is about to be swept. -/
inductive Step (p : P) (s : State P) : State P → Prop
  | spawn (hpc : s.pc p = .dead) (hfree : ∀ q, s.pc q ≠ .sweeping p) : Step p s (s.move p .idle)
  | die (hpc : s.pc p ≠ .dead) : Step p s (s.move p .dead)
  | begin (whole : Bytes) (hpc : s.pc p = .idle) : Step p s ((s.begin p whole).move p .listing)
  | unlisted (hpc : s.pc p = .listing) : Step p s (s.returns p false true false)
  | stale {q : P} (hpc : s.pc p = .listing) (hdead : s.pc q = .dead) : Step p s (s.move p (.sweeping q))
  | sweep {q : P} (done : Bool) (hpc : s.pc p = .sweeping q) : Step p s ((s.unlink q done).move p .listing)
  | listed (done : Bool) (hpc : s.pc p = .listing) : Step p s ((s.unlink p done).move p .opening)
  | create (hpc : s.pc p = .opening) (hnone : s.tmp p = none) :
      Step p s ((s.create p).move p (.writing s.next (s.whole p)))
  | unopened (hpc : s.pc p = .opening) : Step p s (s.move p (.failed none))
  | write {ino : ℕ} {front rest : Bytes} (hpc : s.pc p = .writing ino (front ++ rest)) :
      Step p s ((s.append ino front).move p (.writing ino rest))
  | unwritten {ino : ℕ} {rest : Bytes} (hpc : s.pc p = .writing ino rest) : Step p s (s.move p (.failed (some ino)))
  | rename {ino ino' : ℕ} (hpc : s.pc p = .writing ino []) (htmp : s.tmp p = some ino') :
      Step p s ((s.rename p ino').move p .renamed)
  | fail {made : Option ℕ} (done : Bool) (hpc : s.pc p = .failed made) :
      Step p s ((s.unlink p done).returns p false done (made.isSome && (s.unlink p done).tmp p == made))
  | finish (hpc : s.pc p = .renamed) : Step p s (s.returns p true false false)

lemma Sound.move (h : Sound initial s) (hfree : ∀ q, s.pc q = .sweeping p → pc = .dead)
    (hfine : (s.move p pc).Fine p pc) : Sound initial (s.move p pc) := by
  have hpc (q : P) : (s.move p pc).pc q = if q = p then pc else s.pc q := update_apply ..
  refine ⟨h.old, h.path, fun q => ?_, h.ended⟩
  rw [hpc]
  split
  · exact ‹q = p› ▸ hfine
  · have hq := h.fine q
    cases hsame : s.pc q with
    | sweeping x =>
      rw [hsame] at hq
      refine ⟨?_, hq.2⟩
      rw [hpc]
      split
      · exact hfree q (‹x = p› ▸ hsame)
      · exact hq.1
    | _ => rw [hsame] at hq; exact hq

lemma Sound.goes (h : Sound initial s) (hpc : s.pc p ≠ .dead) (hfine : (s.move p pc).Fine p pc) :
    Sound initial (s.move p pc) :=
  h.move (fun q hq => absurd hq (h.unswept hpc q)) hfine

lemma Sound.returns (h : Sound initial s) (hpc : s.pc p ≠ .dead) {ok unlinked left : Bool}
    (hproper : Ended.Proper s.shown ⟨s.whole p, ok, s.renamed p, unlinked, left⟩) :
    Sound initial (s.returns p ok unlinked left) := by
  have hidle : Sound initial (s.move p .idle) := h.goes hpc trivial
  refine ⟨hidle.old, hidle.path, hidle.fine, fun e he => ?_⟩
  obtain he | he := mem_append.mp he
  · exact h.ended e he
  · exact mem_singleton.mp he ▸ hproper

lemma Sound.begin (h : Sound initial s) (hpc : s.pc p = .idle) (whole : Bytes) : Sound initial (s.begin p whole) := by
  refine h.edit rfl (subset_append_left _ _) (List.Subset.refl _) rfl h.old (.inl rfl) (fun q => ?_)
    fun _ _ _ _ hown => ⟨hown, rfl⟩
  by_cases hq : q = p
  · exact .inl (hq ▸ hpc)
  · exact .inr ⟨update_of_ne hq _ _, update_of_ne hq _ _⟩

lemma Sound.unlink (h : Sound initial s) (hpc : ∀ ino rest, s.pc q ≠ .writing ino rest) (done : Bool) :
    Sound initial (s.unlink q done) := by
  cases done with
  | false => exact h
  | true =>
    have htmp (x : P) : (s.unlink q true).tmp x = if x = q then none else s.tmp x := update_apply ..
    refine h.edit rfl (List.Subset.refl _) (List.Subset.refl _) rfl (fun ino hino => h.old ino ?_) (.inl rfl)
      (fun _ => .inr ⟨rfl, rfl⟩) fun x ino rest hw hown => ⟨⟨hown.1, hown.2.1, fun y => ?_⟩, rfl⟩
    · refine hino.imp_right fun ⟨x, hx⟩ => ⟨x, ?_⟩
      rw [htmp] at hx
      split at hx
      · cases hx
      · exact hx
    · rw [htmp]
      split
      · have hx : q ≠ x := fun hx => hpc ino rest (hx ▸ hw)
        simp [‹y = q›, hx]
      · exact hown.2.2 y

lemma Sound.create (h : Sound initial s) (hpc : s.pc p = .opening) :
    Sound initial (s.create p) ∧ (s.create p).Own p s.next := by
  have hdata (ino : ℕ) (hino : ino < s.next) : (s.create p).data ino = s.data ino :=
    update_of_ne (Nat.ne_of_lt hino) _ _
  have htmp (x : P) : (s.create p).tmp x = if x = p then some s.next else s.tmp x := update_apply ..
  have hfresh (hino : s.path = some s.next ∨ ∃ q, s.tmp q = some s.next) : False := Nat.lt_irrefl _ (h.old _ hino)
  refine ⟨h.edit rfl (List.Subset.refl _) (List.Subset.refl _) rfl (fun ino hino => ?_)
    (.inl (map_data_congr fun ino hp => hdata ino (h.old ino (.inl hp)))) (fun _ => .inr ⟨rfl, rfl⟩)
    fun x ino rest hw hown => ⟨⟨Nat.lt_succ_of_lt hown.1, hown.2.1, fun y => ?_⟩, hdata ino hown.1⟩,
    Nat.lt_succ_self _, fun hp => hfresh (.inl hp), fun x => ?_⟩
  · obtain hp | ⟨x, hx⟩ := hino
    · exact Nat.lt_succ_of_lt (h.old ino (.inl hp))
    · rw [htmp] at hx
      split at hx
      · exact Option.some.inj hx ▸ Nat.lt_succ_self _
      · exact Nat.lt_succ_of_lt (h.old ino (.inr ⟨x, hx⟩))
  · rw [htmp]
    split
    · have hx : p ≠ x := by
        rintro rfl
        cases hpc.symm.trans hw
      simp [‹y = p›, hx, Nat.ne_of_gt hown.1]
    · exact hown.2.2 y
  · rw [htmp]
    split
    · simpa
    · exact iff_of_false (fun ht => hfresh (.inr ⟨x, ht⟩)) ‹_›

lemma Sound.rename (h : Sound initial s) (hown : s.Own p ino) (hpc : s.pc p = .idle) (hwhole : s.data ino ∈ s.begun) :
    Sound initial (s.rename p ino) := by
  have htmp (x : P) : (s.rename p ino).tmp x = if x = p then none else s.tmp x := update_apply ..
  refine h.edit rfl (List.Subset.refl _) (subset_append_left _ _) rfl (fun i hi => ?_) (.inr ⟨_, hwhole, rfl⟩)
    (fun x => ?_) fun x i rest hw hi => ⟨⟨hi.1, fun hpath => ?_, fun y => ?_⟩, rfl⟩
  · obtain hi | ⟨x, hx⟩ := hi
    · exact Option.some.inj hi ▸ hown.1
    · rw [htmp] at hx
      split at hx
      · cases hx
      · exact h.old i (.inr ⟨x, hx⟩)
  · by_cases hx : x = p
    · exact .inl (hx ▸ hpc)
    · exact .inr ⟨rfl, update_of_ne hx _ _⟩
  · cases hpath
    rw [hown.unique hi, hpc] at hw
    cases hw
  · rw [htmp]
    split
    · have hx : p ≠ x := by
        rintro rfl
        cases hpc.symm.trans hw
      simp [‹y = p›, hx]
    · exact hi.2.2 y

lemma Sound.step (h : Sound initial s) (hstep : Step p s s') : Sound initial s' := by
  cases hstep with
  | spawn hpc hfree => exact h.move (fun q hq => absurd hq (hfree q)) trivial
  | die => exact h.move (fun _ _ => rfl) trivial
  | begin whole hpc =>
    refine (h.begin hpc whole).goes (by simp [State.begin, hpc]) ⟨?_, ?_⟩ <;> simp [State.begin, State.move]
  | unlisted hpc => exact h.returns (by simp [hpc]) ⟨nofun, fun _ => ⟨(h.fine_of hpc).2, fun _ => rfl⟩⟩
  | @stale q hpc hdead =>
    have hq : q ≠ p := by
      rintro rfl
      cases hpc.symm.trans hdead
    exact h.goes (by simp [hpc]) ⟨(update_of_ne hq _ _).trans hdead, h.fine_of hpc⟩
  | @sweep q done hpc =>
    obtain ⟨hdead, hunmade⟩ := h.fine_of hpc
    exact (h.unlink (by simp [hdead]) done).goes (by simp [State.unlink, hpc]) hunmade
  | listed done hpc => exact (h.unlink (by simp [hpc]) done).goes (by simp [State.unlink, hpc]) (h.fine_of hpc)
  | create hpc =>
    obtain ⟨hcreated, hown⟩ := h.create hpc
    exact hcreated.goes (by simp [State.create, hpc]) ⟨hown, by simp [State.create, State.move], h.fine_of hpc⟩
  | unopened hpc => exact h.goes (by simp [hpc]) (h.fine_of hpc)
  | @write ino front rest hpc =>
    obtain ⟨hown, hwhole, hunmade⟩ := h.fine_of hpc
    have hidle : Sound initial (s.move p .idle) := h.goes (by simp [hpc]) trivial
    have hnew : Sound initial (((s.move p .idle).append ino front).move p (.writing ino rest)) :=
      (hidle.append hown (update_self ..) front).goes (by simp [State.append, State.move])
        ⟨hown, by simpa [State.append, State.move] using hwhole, hunmade⟩
    simpa [State.append, State.move] using hnew
  | unwritten hpc => exact h.goes (by simp [hpc]) (h.fine_of hpc).2.2
  | @rename ino ino' hpc htmp =>
    obtain ⟨hown, hwhole, hbegun, -⟩ := h.fine_of hpc
    rw [append_nil] at hwhole
    obtain rfl : ino' = ino := Option.some.inj (htmp.symm.trans ((hown.2.2 p).mpr rfl))
    have hidle : Sound initial (s.move p .idle) := h.goes (by simp [hpc]) trivial
    have hnew : Sound initial (((s.move p .idle).rename p ino').move p .renamed) :=
      (hidle.rename hown (update_self ..) (hwhole ▸ hbegun)).goes (by simp [State.rename, State.move])
        (mem_append_right _ (mem_singleton.mpr hwhole.symm))
    simpa [State.rename, State.move] using hnew
  | @fail made done hpc =>
    refine (h.unlink (by simp [hpc]) done).returns (by simp [State.unlink, hpc])
      ⟨nofun, fun _ => ⟨(h.fine_of hpc).2, fun hdone => ?_⟩⟩
    obtain rfl : done = true := hdone
    cases made <;> simp [State.unlink]
  | finish hpc => exact h.returns (by simp [hpc]) ⟨fun _ => h.fine_of hpc, nofun⟩

lemma tmp_step (h : Sound initial s) (hstep : Step p s s') (hq : q ≠ p) (hlive : s.pc q ≠ .dead) :
    s'.tmp q = s.tmp q := by
  have hother (x : P) (done : Bool) (hx : q ≠ x) : (s.unlink x done).tmp q = s.tmp q := by
    cases done <;> simp [State.unlink, hx]
  cases hstep with
  | @sweep x done hpc =>
    refine hother x done ?_
    rintro rfl
    exact h.unswept hlive p hpc
  | listed done | fail done => exact hother p done hq
  | create | rename => exact update_of_ne hq _ _
  | spawn | die | begin | unlisted | stale | unopened | write | unwritten | finish => rfl

/-- Before any call, with whatever temporaries dead processes left. -/
structure State.Start (s : State P) : Prop where
  idle : ∀ p, s.pc p = .dead ∨ s.pc p = .idle
  old : ∀ ino, s.path = some ino ∨ (∃ q, s.tmp q = some ino) → ino < s.next
  ended : s.ended = []

theorem write_atomic_whole (start s : State P) (hstart : start.Start)
    (hrun : ReflTransGen (fun s s' => ∃ p, Step p s s') start s) :
    (s.path.map s.data = start.path.map start.data ∨ ∃ whole ∈ s.begun, s.path.map s.data = some whole) ∧
    (∀ e ∈ s.ended, e.ok = true → e.whole ∈ s.shown) ∧
    (∀ e ∈ s.ended, e.ok = false → e.renamed = false ∧ (e.unlinked = true → e.left = false)) ∧
    ∀ p s', Step p s s' → ∀ q, q ≠ p → s.pc q ≠ .dead → s'.tmp q = s.tmp q := by
  have hsound : Sound (start.path.map start.data) s := by
    induction hrun with
    | refl =>
      refine ⟨hstart.old, .inl rfl, fun p => ?_, by simp [hstart.ended]⟩
      rcases hstart.idle p with hp | hp <;> rw [hp] <;> trivial
    | tail _ hstep ih =>
      obtain ⟨p, hstep⟩ := hstep
      exact ih.step hstep
  exact ⟨hsound.path, fun e he => (hsound.ended e he).1, fun e he => (hsound.ended e he).2,
    fun _ _ hstep _ hq hlive => tmp_step hsound hstep hq hlive⟩

def pair : State Bool :=
  ⟨fun _ => .idle, none, fun _ => none, fun _ => [], 0, fun _ => [], fun _ => false, [], [], []⟩

/-- One process dies with its temporary half written; the other sweeps it and writes the path. -/
theorem write_atomic_whole_swept : ∃ s : State Bool, s.path.map s.data = some [8] ∧ s.tmp true = none ∧
    s.ended.map Ended.ok = [true] ∧ ∀ e ∈ s.ended, e.ok = true → e.whole ∈ s.shown := by
  have hrun : ReflTransGen (fun s s' => ∃ p, Step p s s') pair _ :=
    .head ⟨true, .begin [7, 7] rfl⟩ <| .head ⟨true, .listed true rfl⟩ <| .head ⟨true, .create rfl rfl⟩ <|
      .head ⟨true, @Step.write _ _ true _ 0 [7] [7] rfl⟩ <| .head ⟨true, .die (fun h => by cases h)⟩ <|
      .head ⟨false, .begin [8] rfl⟩ <| .head ⟨false, @Step.stale _ _ false _ true rfl rfl⟩ <|
      .head ⟨false, .sweep true rfl⟩ <| .head ⟨false, .listed true rfl⟩ <| .head ⟨false, .create rfl rfl⟩ <|
      .head ⟨false, @Step.write _ _ false _ 1 [8] [] rfl⟩ <| .head ⟨false, .rename rfl rfl⟩ <|
      .single ⟨false, .finish rfl⟩
  refine ⟨_, ?_, ?_, ?_, (write_atomic_whole pair _ ⟨fun _ => .inr rfl, by simp [pair], rfl⟩ hrun).2.1⟩ <;> rfl

end Kryptik.Kryptikd.Files
