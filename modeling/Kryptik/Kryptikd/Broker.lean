import Kryptik.Lib.History

namespace Kryptik.Kryptikd.Broker

open Lib.History List

structure Payload where
  mime : String
  bytes : List UInt8
  deriving DecidableEq

inductive Zone
  | source
  | target
  deriving DecidableEq

/-- A payload, and which `clipboard_write` brought it. -/
structure Written where
  id : ℕ
  payload : Payload
  deriving DecidableEq

/-- How far `clipboard_move` is: what it has read, written to the target and removed at the source. -/
inductive Moving
  | start
  | empty
  | read (w : Written)
  | written (w : Written)
  | moved (w : Written)
  deriving DecidableEq

/-- The two zones' clipboard files, each with one payload whole at any time. What was written and what was replaced is
history. -/
structure Boards where
  clipboard : Zone → Option Written := fun _ => none
  moving : Moving := .start
  writes : List Written := []
  replaced : List Written := []

def Boards.put (b : Boards) (z : Zone) (w : Written) : Boards :=
  { b with
    clipboard := Function.update b.clipboard z (some w)
    replaced := b.replaced ++ (b.clipboard z).toList }

def Boards.remove (b : Boards) (z : Zone) : Boards := { b with clipboard := Function.update b.clipboard z none }

def Boards.fresh (b : Boards) (p : Payload) : Written := ⟨b.writes.length, p⟩

def clipboardWrite (b : Boards) (z : Zone) (p : Payload) : Boards :=
  { b.put z (b.fresh p) with writes := b.writes ++ [b.fresh p] }

def clipboardMove (b : Boards) : Boards :=
  match b.moving with
  | .start => { b with moving := (b.clipboard .source).elim .empty .read }
  | .read w => { b.put .target w with moving := .written w }
  | .written w => { b.remove .source with moving := .moved w }
  | _ => b

inductive Event
  | write (z : Zone) (p : Payload)
  | move

def Boards.step (b : Boards) : Event → Boards
  | .write z p => clipboardWrite b z p
  | .move => clipboardMove b

/-- No write into the source while its payload is being moved. -/
def Quiet (e : Event) (b : Boards) : Prop :=
  ∀ p w, e = .write .source p → b.moving ≠ .read w ∧ b.moving ≠ .written w

/-- What was written is on a clipboard, unless something was written over it. -/
def Boards.Kept (b : Boards) : Prop := ∀ w ∈ b.writes, w ∈ b.replaced ∨ ∃ z, b.clipboard z = some w

structure Boards.Sound (b : Boards) : Prop where
  ids : ∀ w ∈ b.writes, w.id < b.writes.length
  boards : ∀ z w, b.clipboard z = some w → w ∈ b.writes
  replaced : ∀ w ∈ b.replaced, w ∈ b.writes
  moving : ∀ w, b.moving = .read w ∨ b.moving = .written w ∨ b.moving = .moved w → w ∈ b.writes
  moved : ∀ w, b.moving = .moved w → b.clipboard .source ≠ some w

variable {b : Boards} {e : Event} {p : Payload} {z z' : Zone} {w x : Written}

lemma Boards.Sound.fresh (h : b.Sound) (p : Payload) : b.fresh p ∉ b.writes := fun hin =>
  Nat.lt_irrefl _ (h.ids _ hin)

lemma put_self (b : Boards) (z : Zone) (w : Written) : (b.put z w).clipboard z = some w := Function.update_self _ _ _

lemma put_ne (b : Boards) (w : Written) (h : z' ≠ z) : (b.put z w).clipboard z' = b.clipboard z' :=
  Function.update_of_ne h _ _

lemma remove_ne (b : Boards) (h : z' ≠ z) : (b.remove z).clipboard z' = b.clipboard z' :=
  Function.update_of_ne h _ _

lemma source_ne : Zone.source ≠ .target := by decide

lemma clipboard_put (hx : (b.put z w).clipboard z' = some x) : x = w ∨ b.clipboard z' = some x := by
  by_cases hz : z' = z
  · rw [hz, put_self b] at hx
    exact .inl (Option.some.inj hx).symm
  · exact .inr (put_ne b w hz ▸ hx)

lemma mem_over : x ∈ b.replaced ++ (b.clipboard z).toList ↔ x ∈ b.replaced ∨ b.clipboard z = some x := by
  simp [Option.mem_toList]

lemma Boards.Sound.write (h : b.Sound) (z : Zone) (p : Payload) : (clipboardWrite b z p).Sound := by
  have hmore {w : Written} (hw : w ∈ b.writes) : w ∈ b.writes ++ [b.fresh p] := mem_append_left _ hw
  refine ⟨fun w hw => ?_, fun z' w hw => ?_, fun w hw => ?_, fun w hw => hmore (h.moving w hw), fun w hw hsource => ?_⟩
  · simp only [clipboardWrite, length_append, length_singleton] at hw ⊢
    obtain hw | hw := mem_append.mp hw
    · exact Nat.lt_succ_of_lt (h.ids w hw)
    · rw [mem_singleton.mp hw]
      exact Nat.lt_succ_self _
  · obtain rfl | hw := clipboard_put hw
    · exact mem_append_right _ (mem_singleton_self _)
    · exact hmore (h.boards z' w hw)
  · obtain hw | hw := mem_over.mp hw
    · exact hmore (h.replaced w hw)
    · exact hmore (h.boards z w hw)
  · obtain rfl | hold := clipboard_put hsource
    · exact h.fresh p (h.moving _ (.inr (.inr hw)))
    · exact h.moved w hw hold

lemma Boards.Sound.move (h : b.Sound) : (clipboardMove b).Sound := by
  unfold clipboardMove
  cases hm : b.moving with
  | start =>
    refine ⟨h.ids, h.boards, h.replaced, fun w hw => ?_, fun w hw => ?_⟩
    · cases hs : b.clipboard .source <;> simp [hs] at hw
      exact hw ▸ h.boards .source _ hs
    · cases hs : b.clipboard .source <;> simp [hs] at hw
  | read w =>
    have hw := h.moving w (.inl hm)
    refine ⟨h.ids, fun z x hx => ?_, fun x hx => ?_, fun x hx => ?_, fun x hx => by cases hx⟩
    · obtain rfl | hx := clipboard_put hx
      · exact hw
      · exact h.boards z x hx
    · obtain hx | hx := mem_over.mp hx
      · exact h.replaced x hx
      · exact h.boards .target x hx
    · simp at hx
      exact hx ▸ hw
  | written w =>
    refine ⟨h.ids, fun z x hx => ?_, h.replaced, fun x hx => ?_, fun x _ => by simp [Boards.remove]⟩
    · by_cases hz : z = .source
      · simp [hz, Boards.remove] at hx
      · exact h.boards z x (remove_ne b hz ▸ hx)
    · simp at hx
      exact hx ▸ h.moving w (Or.inr (Or.inl hm))
  | empty | moved w => exact h

/-- As long as no write came in between: the payload being moved is still at the source. -/
structure Boards.Whole (b : Boards) : Prop where
  kept : b.Kept
  read : ∀ w, b.moving = .read w → b.clipboard .source = some w
  written : ∀ w, b.moving = .written w →
    b.clipboard .source = some w ∧ (w ∈ b.replaced ∨ b.clipboard .target = some w)

lemma kept_put (h : b.Kept) (hx : x ∈ b.writes) (z : Zone) (w : Written) :
    x ∈ (b.put z w).replaced ∨ ∃ z', (b.put z w).clipboard z' = some x := by
  obtain hx | ⟨z', hx⟩ := h x hx
  · exact .inl (mem_over.mpr (.inl hx))
  · by_cases hz : z' = z
    · exact .inl (mem_over.mpr (.inr (hz ▸ hx)))
    · exact .inr ⟨z', (put_ne b w hz).trans hx⟩

lemma Boards.Whole.write (h : b.Whole) (hq : Quiet (.write z p) b) : (clipboardWrite b z p).Whole := by
  have hsource {w : Written} (hm : b.moving = .read w ∨ b.moving = .written w)
      (hs : b.clipboard .source = some w) : (b.put z (b.fresh p)).clipboard .source = some w := by
    have hz : z ≠ .source := by
      rintro rfl
      exact hm.elim (hq p w rfl).1 (hq p w rfl).2
    exact (put_ne b _ hz.symm).trans hs
  refine ⟨fun w hw => ?_, fun w hm => hsource (.inl hm) (h.read w hm), fun w hm => ?_⟩
  · obtain hw | hw := mem_append.mp hw
    · exact kept_put h.kept hw z _
    · exact .inr ⟨z, mem_singleton.mp hw ▸ put_self b z _⟩
  · obtain ⟨hs, ht⟩ := h.written w hm
    refine ⟨hsource (.inr hm) hs, ?_⟩
    obtain ht | ht := ht
    · exact .inl (mem_over.mpr (.inl ht))
    · by_cases hz : .target = z
      · exact .inl (mem_over.mpr (.inr (hz ▸ ht)))
      · exact .inr ((put_ne b _ hz).trans ht)

lemma Boards.Whole.move (h : b.Whole) : (clipboardMove b).Whole := by
  unfold clipboardMove
  cases hm : b.moving with
  | start =>
    refine ⟨h.kept, fun w hw => ?_, fun w hw => ?_⟩
    · cases hs : b.clipboard .source with
      | none => simp [hs] at hw
      | some x =>
        obtain rfl : x = w := by simpa [hs] using hw
        rfl
    · cases hs : b.clipboard .source <;> simp [hs] at hw
  | read w =>
    refine ⟨fun x hx => kept_put h.kept hx .target w, fun x hx => (by cases hx), fun x hx => ?_⟩
    obtain rfl : w = x := by simpa using hx
    exact ⟨(put_ne b w source_ne).trans (h.read w hm), Or.inr (put_self b .target w)⟩
  | written w =>
    obtain ⟨hs, ht⟩ := h.written w hm
    refine ⟨fun x hx => ?_, fun x hx => (by cases hx), fun x hx => (by cases hx)⟩
    have htarget := remove_ne b source_ne.symm
    obtain hx | ⟨z, hx⟩ := h.kept x hx
    · exact .inl hx
    · cases z with
      | target => exact .inr ⟨.target, htarget.trans hx⟩
      | source =>
        cases hs.symm.trans hx
        exact ht.imp_right fun ht => ⟨.target, htarget.trans ht⟩
  | empty | moved w => exact h

/-- A payload that nothing was written over is on no clipboard, or goes when the source's is removed. -/
def Boards.Loses (b : Boards) : Prop :=
  ∃ x ∈ b.writes, x ∉ b.replaced ∧ b.clipboard .target ≠ some x ∧
    ((∃ w, (b.moving = .read w ∨ b.moving = .written w) ∧ w ≠ x ∧ b.clipboard .source = some x) ∨
      ∃ w, b.moving = .moved w ∧ b.clipboard .source ≠ some x)

lemma loses_write (h : b.Sound) (hm : b.moving = .read w ∨ b.moving = .written w) :
    (clipboardWrite b .source p).Loses := by
  have hnew := h.fresh p
  have hw : w ∈ b.writes := h.moving w (by tauto)
  refine ⟨b.fresh p, mem_append_right _ (mem_singleton_self _), fun hr => hnew ?_, fun ht => hnew ?_,
    .inl ⟨w, hm, fun he => hnew (he ▸ hw), put_self b .source _⟩⟩
  · exact (mem_over.mp hr).elim (h.replaced _) (h.boards .source _)
  · exact h.boards .target _ ((put_ne b (b.fresh p) source_ne.symm).symm.trans ht)

lemma Boards.Loses.step (h : b.Loses) (hs : b.Sound) (e : Event) : (b.step e).Loses := by
  obtain ⟨x, hx, hr, ht, hcases⟩ := h
  cases e with
  | move =>
    obtain ⟨w, hm | hm, hne, hsource⟩ | ⟨w, hm, hsource⟩ := hcases
    · simp only [Boards.step, clipboardMove, hm]
      refine ⟨x, hx, fun h => (mem_over.mp h).elim hr ht, ?_, .inl ⟨w, .inr rfl, hne, ?_⟩⟩
      · exact fun h => hne (Option.some.inj ((put_self b .target w).symm.trans h))
      · exact (put_ne b w source_ne).trans hsource
    · simp only [Boards.step, clipboardMove, hm]
      refine ⟨x, hx, hr, ?_, .inr ⟨w, rfl, by simp [Boards.remove]⟩⟩
      exact ht
    · simp only [Boards.step, clipboardMove, hm]
      exact ⟨x, hx, hr, ht, Or.inr ⟨w, hm, hsource⟩⟩
  | write z p =>
    have hnew : x ≠ b.fresh p := fun he => hs.fresh p (he ▸ hx)
    have hput {z' : Zone} (h : b.clipboard z' ≠ some x) : (b.put z (b.fresh p)).clipboard z' ≠ some x :=
      fun hz => (clipboard_put hz).elim hnew h
    obtain ⟨w, hm, hne, hsource⟩ | ⟨w, hm, hsource⟩ := hcases
    · cases z with
      | source => exact loses_write hs hm
      | target =>
        exact ⟨x, mem_append_left _ hx, fun h => (mem_over.mp h).elim hr ht, hput ht,
          .inl ⟨w, hm, hne, (put_ne b (b.fresh p) source_ne).trans hsource⟩⟩
    · refine ⟨x, mem_append_left _ hx, fun h => (mem_over.mp h).elim hr ?_, hput ht,
        .inr ⟨w, hm, hput hsource⟩⟩
      cases z with
      | source => exact hsource
      | target => exact ht

lemma Boards.Sound.step (h : b.Sound) (e : Event) : (b.step e).Sound := by
  cases e with
  | write z p => exact h.write z p
  | move => exact h.move

lemma Boards.Whole.step (h : b.Whole) (hq : Quiet e b) : (b.step e).Whole := by
  cases e with
  | write z p => exact h.write hq
  | move => exact h.move

lemma run_sound (h : b.Sound) (events : List Event) : (events.foldl Boards.step b).Sound := by
  induction events generalizing b with
  | nil => exact h
  | cons e events ih => exact ih (h.step e)

lemma run_whole (h : b.Whole) {events : List Event} (hq : Along Boards.step Quiet events b) :
    (events.foldl Boards.step b).Whole := by
  induction events generalizing b with
  | nil => exact h
  | cons e events ih => exact ih (h.step hq.1) hq.2

lemma run_loses (h : b.Loses) (hs : b.Sound) (events : List Event) : (events.foldl Boards.step b).Loses := by
  induction events generalizing b with
  | nil => exact h
  | cons e events ih => exact ih (h.step hs e) (hs.step e)

lemma loses_of_not_quiet (hs : b.Sound) (h : ¬ Quiet e b) : (b.step e).Loses := by
  simp only [Quiet, not_forall] at h
  obtain ⟨p, w, rfl, hm⟩ := h
  exact loses_write (w := w) hs (by tauto)

/-- A run keeps what was written, or a write into the source came while its payload was being moved. -/
lemma run_loses_of_not_quiet (hs : b.Sound) {events : List Event} (h : ¬ Along Boards.step Quiet events b) :
    (events.foldl Boards.step b).Loses := by
  induction events generalizing b with
  | nil => exact absurd trivial h
  | cons e events ih =>
    by_cases hq : Quiet e b
    · exact ih (hs.step e) fun hrest => h ⟨hq, hrest⟩
    · exact run_loses (loses_of_not_quiet hs hq) (hs.step e) events

theorem move_keeps_iff_quiet (events : List Event)
    (hdone : (events.foldl Boards.step {}).moving = .empty ∨ ∃ w, (events.foldl Boards.step {}).moving = .moved w) :
    ((events.foldl Boards.step {}).Kept ∧ ∀ w, (events.foldl Boards.step {}).moving = .moved w →
        ¬ ((events.foldl Boards.step {}).clipboard .source = some w ∧
          (events.foldl Boards.step {}).clipboard .target = some w)) ↔
      Along Boards.step Quiet events {} := by
  have hs : Boards.Sound {} := by constructor <;> simp
  constructor
  · rintro ⟨hkept, -⟩
    by_contra hq
    obtain ⟨x, hx, hr, ht, hcases⟩ := run_loses_of_not_quiet hs hq
    have hgone : (events.foldl Boards.step {}).clipboard .source ≠ some x := by
      obtain ⟨w, hm, -⟩ | ⟨w, -, hsource⟩ := hcases
      · rcases hdone with hd | ⟨w', hd⟩ <;> simp [hd] at hm
      · exact hsource
    obtain h | ⟨z, h⟩ := hkept x hx
    · exact hr h
    · cases z with
      | source => exact hgone h
      | target => exact ht h
  · intro hq
    have hwhole := run_whole (b := {}) (by constructor <;> simp [Boards.Kept]) hq
    exact ⟨hwhole.kept, fun w hm hboth => (run_sound hs events).moved w hm hboth.1⟩

theorem move_keeps_one :
    (([.write .source ⟨"text/plain", [97]⟩, .move, .move, .move] : List Event).foldl Boards.step {}).Kept :=
  ((move_keeps_iff_quiet [.write .source ⟨"text/plain", [97]⟩, .move, .move, .move] (Or.inr ⟨_, rfl⟩)).mpr
    ⟨fun _ _ _ => ⟨nofun, nofun⟩, nofun, nofun, nofun, trivial⟩).1

/-- A payload written while another is being moved is on neither clipboard afterwards. -/
theorem move_loses_write :
    ∃ events : List Event, ∃ w x, (events.foldl Boards.step {}).moving = .moved w ∧
      x ∈ (events.foldl Boards.step {}).writes ∧ x ∉ (events.foldl Boards.step {}).replaced ∧
      ∀ z, (events.foldl Boards.step {}).clipboard z ≠ some x := by
  refine ⟨[.write .source ⟨"text/plain", [97]⟩, .move, .write .source ⟨"text/plain", [98]⟩, .move, .move],
    ⟨0, "text/plain", [97]⟩, ⟨1, "text/plain", [98]⟩, rfl, by decide, by decide, fun z => ?_⟩
  cases z <;> decide

end Kryptik.Kryptikd.Broker
