import Kryptik.Kryptikd.Update

namespace Kryptik.Kryptikd.Update

open Lib.Text Lib.Prog Option Store

variable {text : String} {o : Outcome} {why : Refusal} {c : Checking}

lemma versionIn_of_isVersion {v : String} (h : isVersion v = true) : versionIn v = some v := by
  have hplain : ∀ c ∈ v.toList, isWhitespace c = false := by
    intro c hc
    simp only [isVersion, Bool.and_eq_true, List.all_eq_true] at h
    refine not_isWhitespace_of_graphic ?_
    have hchar := h.2 c hc
    simp only [Bool.or_eq_true, beq_iff_eq] at hchar
    obtain (((hchar | rfl) | rfl) | rfl) | rfl := hchar
    · exact isAsciiGraphic_of_alphanumeric hchar
    all_goals rfl
  rw [versionIn, trim_eq_self hplain, String.ofList_toList]
  exact if_pos h

lemma isVersion_of_versionIn {v : String} (h : versionIn text = some v) : isVersion v = true := by
  unfold versionIn at h
  dsimp only at h
  split_ifs at h with hv
  obtain rfl := Option.some.inj h
  exact hv

lemma wantedVersion_of {s : Store} (h : s.wanted = some text) :
    s.wantedVersion = versionIn text := by rw [wantedVersion, h, bind_some]

lemma verifiedFiles_of {s : Store} {version : String} (h : s.files = some text) :
    s.verifiedFiles version = listedFor text version := by rw [verifiedFiles, h, bind_some]

@[simp] lemma Machine.edit_id (m : Machine) : m.edit id = m := rfl

section Store

variable (s : Store) (version v name n : String)

@[simp] lemma held_makeStage : (s.makeStage version).held v n = s.held v n := by
  unfold Store.makeStage
  split
  · rfl
  · rename_i hnone
    by_cases hv : v = version
    · subst hv
      simp [Store.held, hnone]
    · simp [Store.held, hv]

@[simp] lemma held_setFile_self_none : (s.setFile version name none).held version name = 0 := by
  cases h : s.incoming version <;> simp [Store.held, setFile, h]

lemma held_setFile_of_ne (bytes : Option (List UInt8)) (hn : n ≠ name) :
    (s.setFile version name bytes).held version n = s.held version n := by
  cases h : s.incoming version <;> simp [Store.held, setFile, h, hn]

@[simp] lemma held_appendFile_nil : (s.appendFile version name []).held version name = s.held version name := by
  cases h : s.incoming version with
  | none => simp [Store.held, appendFile, setFile, h]
  | some stage => cases hf : stage.files name <;> simp [Store.held, appendFile, setFile, h, hf]

@[simp] lemma held_removeStage : (s.removeStage version).held version n = 0 := by
  simp [Store.held, Store.removeStage]

lemma held_leaveStage {left : List (String × String)} (h : s.held version n = 0) :
    (s.leaveStage version left).held version n = 0 := by
  cases hs : s.incoming version with
  | none => simp [Store.held, leaveStage, hs]
  | some stage =>
    have hn : ((stage.files n).map List.length).getD 0 = 0 := by simpa [Store.held, hs] using h
    simp only [Store.held, leaveStage, hs, Function.update_self, bind_some, Stage.leave]
    split_ifs with hleft
    · rw [bind_some]
      dsimp only
      split_ifs
      · exact hn
      · rfl
    · rfl

lemma held_appendFile_of_ne (bytes : List UInt8) (hn : n ≠ name) :
    (s.appendFile version name bytes).held version n = s.held version n :=
  held_setFile_of_ne s version name n _ hn

@[simp] lemma wantedVersion_makeStage : (s.makeStage version).wantedVersion = s.wantedVersion := by
  unfold Store.makeStage
  split <;> rfl

@[simp] lemma verifiedFiles_makeStage : (s.makeStage version).verifiedFiles v = s.verifiedFiles v := by
  unfold Store.makeStage
  split <;> rfl

end Store

variable {α : Type} {Q : α → Machine → Prop} {E : Stop → Machine → Prop} {m : Machine}

lemma wp_mustChange {Q : Unit → Machine → Prop} {f : Machine → Machine} (hdone : Q () (f m)) (hstop : ∀ e, E e m)
    (hlate : E .crashed (f m)) :
    wp (mustChange o why f) Q E m := by
  cases o with
  | done => exact hdone
  | failed => exact hstop _
  | crashed late =>
    cases late
    · exact hstop _
    · exact hlate

lemma wp_must_id {Q : Unit → Machine → Prop} (hdone : Q () m) (hstop : ∀ e, E e m) : wp (must o why id) Q E m :=
  wp_mustChange hdone hstop (hstop _)

lemma wp_may {Q : Unit → Machine → Prop} {f : Store → Store} (hdone : Q () (m.edit f)) (hfailed : Q () m)
    (hstop : E .crashed m) (hlate : E .crashed (m.edit f)) :
    wp (may o f) Q E m := by
  cases o with
  | done => exact hdone
  | failed => exact hfailed
  | crashed late =>
    cases late
    · exact hstop
    · exact hlate

lemma wp_look_either {Q : Option α → Machine → Prop} {f : Store → Option α} (hdone : Q (f m.store) m)
    (hfailed : o = .failed → Q none m) (hstop : ∀ e, E e m) :
    wp (look o f) Q E m := by
  cases o with
  | done => exact hdone
  | failed => exact hfailed rfl
  | crashed late => exact hstop _

lemma wp_must_id_of_ne {Q : Unit → Machine → Prop} (ho : o ≠ .done) (hstop : ∀ e, E e m) :
    wp (must o why id) Q E m := by
  cases o with
  | done => exact absurd rfl ho
  | failed => exact hstop _
  | crashed late => cases late <;> exact hstop _

lemma wp_look_of_ne {Q : Option α → Machine → Prop} {f : Store → Option α} (ho : o ≠ .done) (hfailed : Q none m)
    (hstop : ∀ e, E e m) : wp (look o f) Q E m := by
  cases o with
  | done => exact absurd rfl ho
  | failed => exact hfailed
  | crashed late => exact hstop _

lemma wp_look {Q : Option α → Machine → Prop} {f : Store → Option α} (ho : o ≠ .failed) (hdone : Q (f m.store) m)
    (hstop : ∀ e, E e m) : wp (look o f) Q E m :=
  wp_look_either hdone (fun h => absurd h ho) hstop

@[simp] lemma wp_mustChange_done {Q : Unit → Machine → Prop} (why : Refusal) (f : Machine → Machine) :
    wp (mustChange .done why f) Q E m ↔ Q () (f m) := Iff.rfl

@[simp] lemma wp_must_done {Q : Unit → Machine → Prop} (why : Refusal) (f : Store → Store) :
    wp (must .done why f) Q E m ↔ Q () (m.edit f) := Iff.rfl

@[simp] lemma wp_look_done {Q : Option α → Machine → Prop} (f : Store → Option α) :
    wp (look .done f) Q E m ↔ Q (f m.store) m := Iff.rfl

@[simp] lemma wp_look_failed {Q : Option α → Machine → Prop} (f : Store → Option α) :
    wp (look .failed f) Q E m ↔ Q none m := Iff.rfl

@[simp] lemma wp_orRefuse_some (why : Refusal) (a : α) : wp (orRefuse why (some a)) Q E m ↔ Q a m := Iff.rfl

@[simp] lemma wp_orElseRefuse_ok {ε : Type} (why : ε → Refusal) (a : α) :
    wp (orElseRefuse why (.ok a)) Q E m ↔ Q a m := Iff.rfl

lemma wp_orRefuse {x : Option α} (hsome : ∀ a, x = some a → Q a m) (hstop : ∀ e, E e m) :
    wp (orRefuse why x) Q E m := by
  cases x with
  | none => exact hstop _
  | some a => exact hsome a rfl

lemma wp_orElseRefuse {ε : Type} {why : ε → Refusal} {x : Except ε α} (hok : ∀ a, x = .ok a → Q a m)
    (hstop : ∀ e, E e m) : wp (orElseRefuse why x) Q E m := by
  cases x with
  | error e => exact hstop _
  | ok a => exact hok a rfl

lemma after_of_wp {x : Call α} {P : Machine → Prop} (h : wp x (fun _ => P) (fun _ => P) m) : P (m.after x) := by
  unfold wp at h
  unfold Machine.after
  split at h
  · rename_i hx
    rwa [hx]
  · rename_i hx
    rwa [hx]

section Keeps

variable {I : Machine → Prop}

lemma keeps_mustChange {o : Outcome} {why : Refusal} {f : Machine → Machine} (hf : ∀ m, I m → I (f m)) :
    Keeps I (mustChange o why f) := fun m hm => wp_mustChange (hf m hm) (fun _ => hm) (hf m hm)

lemma keeps_look {o : Outcome} {f : Store → Option α} : Keeps I (look o f) :=
  fun _ hm => wp_look_either hm (fun _ => hm) (fun _ => hm)

lemma keeps_orRefuse {why : Refusal} {x : Option α} : Keeps I (orRefuse why x) :=
  fun _ hm => wp_orRefuse (fun _ _ => hm) (fun _ => hm)

lemma keeps_orElseRefuse {ε : Type} {why : ε → Refusal} {x : Except ε α} :
    Keeps I (orElseRefuse why x) := fun _ hm => wp_orElseRefuse (fun _ _ => hm) (fun _ => hm)

lemma keeps_latest {role : String} {a : LatestArgs} (hconsider : ∀ m, I m → I (m.consider a.now))
    (hcheck : ∀ m, I m → I (m.check a.now))
    (hstore : ∀ m, I m → I (m.edit (fun s => { s with pointer := some a.pointer }))) :
    Keeps I (latest role a) := by
  refine .bind (keeps_mustChange (fun _ hm => hm)) fun _ => .bind keeps_look fun last => ?_
  refine .ite (fun _ _ hm => hm) (fun _ => ?_)
  refine .bind (keeps_mustChange hconsider) fun _ => .bind keeps_orRefuse fun text => ?_
  refine .bind (keeps_mustChange (fun _ hm => hm)) fun _ => .bind (keeps_mustChange (fun _ hm => hm)) fun _ => ?_
  refine .bind (.update hcheck) fun _ => .bind keeps_orElseRefuse fun _ => ?_
  refine .bind keeps_orElseRefuse fun p => .bind keeps_look fun newest => ?_
  refine .bind keeps_orElseRefuse fun standing => .bind (keeps_mustChange hstore) fun _ => .ret standing

end Keeps

def ClearIo.Whole (io : ClearIo) : Prop :=
  (io.files = .done ∨ io.files = .failed) ∧ io.incoming = .whole

lemma wp_clearStage {io : ClearIo} (hio : io.Whole) {Q : Bool → Machine → Prop}
    (hfiles : Q true (m.edit (fun s => { s with files := none })).clear) (hkept : Q true m.clear) :
    wp (clearStage io) Q E m := by
  obtain ⟨hremoved, hincoming⟩ := hio
  unfold clearStage
  rw [hincoming]
  obtain hremoved | hremoved := hremoved
  · rw [hremoved]
    exact hfiles
  · rw [hremoved]
    exact hkept

lemma wp_recordWanted {io : WantIo} {p : Pointer} {I : Machine → Prop} (h : I m)
    (hwanted : I (m.edit (fun s => { s with wanted := some p.version })))
    (hdeclined : ∀ m, I m → I (m.edit (fun s => { s with declined := none }))) :
    wp (recordWanted io p) (fun _ => I) (fun _ => I) m := by
  unfold recordWanted
  simp only [wp_bind]
  refine wp_mustChange ?_ (fun _ => h) hwanted
  exact wp_may (hdeclined _ hwanted) hwanted hwanted (hdeclined _ hwanted)

lemma wp_wantLocked {io : WantIo} {p : Pointer} {I : Machine → Prop} (h : I m)
    (hkept : m.store.wantedVersion = some p.version → wp (recordWanted io p) (fun _ => I) (fun _ => I) m)
    (hcleared : wp (clearStage io.clear) (fun _ => wp (recordWanted io p) (fun _ => I) (fun _ => I)) (fun _ => I) m) :
    wp (wantLocked io p) (fun _ => I) (fun _ => I) m := by
  unfold wantLocked
  simp only [wp_bind]
  have hclear : wp (must io.noApply .applying id) (fun _ =>
      wp (clearStage io.clear) (fun _ => wp (recordWanted io p) (fun _ => I) (fun _ => I)) (fun _ => I))
      (fun _ => I) m := wp_must_id hcleared (fun _ => h)
  refine wp_must_id ?_ (fun _ => h)
  refine wp_look_either ?_ (fun _ => ?_) (fun _ => h)
  · refine wp_ite (fun _ => ?_) (fun hsame => hkept (by simpa using hsame))
    simpa only [wp_bind] using hclear
  · refine wp_ite (fun _ => ?_) (fun hsame => absurd hsame (by simp))
    simpa only [wp_bind] using hclear

/-- What a put that is written goes by: what it read, and `may_put`. -/
structure PutGrounds (io : PutIo) (a : PutArgs) (m : Machine) (version : String) (p : Pointer)
    (files : Option (List Entry)) : Prop where
  wanted : m.store.wantedVersion = some version
  pointer : m.store.storedPointer = some p
  newest : p.version = version
  listed : files = m.store.verifiedFiles version ∨ io.readFiles = .failed ∧ files = none
  may : ∃ held, (held = m.store.held version a.name ∨ io.readHeld = .failed) ∧
    mayPut files a.name a.offset a.bytes.length held = .ok ()

lemma wp_putLocked {Q : Reply ⊕ Checking → Machine → Prop} {io : PutIo} {a : PutArgs} (hstop : ∀ e, E e m)
    (hlisted : ∀ version p files, PutGrounds io a m version p (some files) →
      wp (stageBytes io a version true) (fun _ => Q (.inl (pieceReply files a))) E m)
    (hpair : ∀ version p, PutGrounds io a m version p none →
      wp (stageBytes io a version false) (fun _ => wp (pairArrived io a version p) Q E) E m) :
    wp (putLocked io a) Q E m := by
  unfold putLocked
  simp only [wp_bind]
  refine wp_must_id ?_ hstop
  refine wp_look_either ?_ (fun _ => hstop _) hstop
  refine wp_orRefuse (fun version hversion => ?_) hstop
  refine wp_look_either ?_ (fun _ => hstop _) hstop
  refine wp_orRefuse (fun p hp => ?_) hstop
  obtain ⟨hp, hsame⟩ := filter_eq_some_iff.mp hp
  have hwrite (files : Option (List Entry)) (held : ℕ) (next : Call (Reply ⊕ Checking))
      (hsome : ∀ l, files = some l → next = pure (.inl (pieceReply l a)))
      (hnone : files = none → next = pairArrived io a version p)
      (hfiles : files = m.store.verifiedFiles version ∨ io.readFiles = .failed ∧ files = none)
      (hheld : held = m.store.held version a.name ∨ io.readHeld = .failed) :
      wp (orElseRefuse .put (mayPut files a.name a.offset a.bytes.length held)) (fun _ =>
        wp (stageBytes io a version files.isSome) (fun _ => wp next Q E) E) E m := by
    refine wp_orElseRefuse (fun _ hmay => ?_) hstop
    have hgrounds : PutGrounds io a m version p files :=
      ⟨hversion, hp, by simpa using hsame, hfiles, held, hheld, hmay⟩
    cases files with
    | some files =>
      rw [hsome files rfl]
      exact hlisted version p files hgrounds
    | none =>
      rw [hnone rfl]
      exact hpair version p hgrounds
  refine wp_look_either ?_ (fun hfailed => ?_) hstop
  · exact wp_look_either (hwrite _ _ _ (fun _ h => by rw [h]) (fun h => by rw [h]) (.inl rfl) (.inl rfl))
      (fun h => hwrite _ _ _ (fun _ h => by rw [h]) (fun h => by rw [h]) (.inl rfl) (.inr h)) hstop
  · exact wp_look_either (hwrite none _ _ (fun _ h => by cases h) (fun _ => rfl) (.inr ⟨hfailed, rfl⟩) (.inl rfl))
      (fun h => hwrite none _ _ (fun _ h => by cases h) (fun _ => rfl) (.inr ⟨hfailed, rfl⟩) (.inr h)) hstop

def Machine.written (m : Machine) (version : String) (a : PutArgs) (k : ℕ) : Machine :=
  let put : Accepted := ⟨version, (m.store.stageIno version).getD 0, a.name, a.offset, a.bytes⟩
  ({ m with accepted := m.accepted ++ [put] } : Machine).edit
    (Store.appendFile · version a.name (a.bytes.take k))

lemma wp_stageBytes {io : PutIo} {a : PutArgs} {version : String} {listed : Bool} {I J : Machine → Prop} (h : I m)
    (hmake : ∀ m, I m → I (m.edit (Store.makeStage · version)))
    (hclean : listed = false → ∀ m, I m → I (m.edit (setFile · version a.name none)))
    (hopen : ∀ m, I m → I (m.edit (appendFile · version a.name [])))
    (hwrite : ∀ m, I m → io.write = .whole → J (m.written version a a.bytes.length))
    (hcut : ∀ m, I m → ∀ k crashed, io.write = .cut k crashed → ∀ e, E e (m.written version a k))
    (hI : ∀ e m, I m → E e m) :
    wp (stageBytes io a version listed) (fun _ => J) E m := by
  have happend : ∀ m, I m → wp (appendBytes io version a.name a.offset a.bytes) (fun _ => J) E m := by
    intro m hm
    unfold appendBytes
    simp only [wp_bind]
    refine wp_mustChange ?_ (fun e => hI e m hm) (hI _ _ (hopen m hm))
    cases hio : io.write with
    | whole =>
      have hw := hwrite _ (hopen m hm) hio
      rw [Machine.written, List.take_length] at hw
      exact hw
    | cut k crashed => exact hcut _ (hopen m hm) k crashed hio _
  unfold stageBytes
  simp only [wp_bind]
  refine wp_mustChange ?_ (fun e => hI e m h) (hI _ _ (hmake m h))
  refine wp_ite (fun hl => ?_) (fun _ => happend _ (hmake m h))
  have hcleaned := hclean (by simpa using hl) _ (hmake m h)
  simp only [wp_bind]
  exact wp_may (happend _ hcleaned) (happend _ (hmake m h)) (hI _ _ (hmake m h)) (hI _ _ hcleaned)

lemma mayPut_none {name : String} {offset len held : ℕ} (h : mayPut none name offset len held = .ok ()) :
    name = "manifest" ∨ name = "manifest.sig" := by
  unfold mayPut at h
  split_ifs at h with _ _ hname
  exact hname

lemma keeps_removeStage {I : Machine → Prop} {version : String}
    (hremove : ∀ m, I m → I (m.edit (Store.removeStage · version)))
    (hleave : ∀ m left, I m → I (m.edit (leaveStage · version left))) (r : Removal) :
    Keeps I (removeStage r version) := by
  intro m hm
  cases r with
  | whole => exact hremove m hm
  | cut left crashed =>
    exact wp_ite (fun _ => hleave m left hm) (fun _ => hleave m left hm)

lemma keeps_refuseChecked {I : Machine → Prop} {io : SettleIo}
    (hrefused : ∀ m, I m → I (m.edit (fun s => { s with refused := some c.now })))
    (hremove : Keeps I (removeStage io.remove c.version)) (why : Refusal) : Keeps I (refuseChecked io c why : Call α) :=
  .bind (keeps_mustChange hrefused) fun _ => .bind hremove fun _ => .stop (fun _ hm => hm)

/-- What the steps of a put into one stage keep, up to the check. -/
structure StageStable (version name : String) (I : Machine → Prop) : Prop where
  make : ∀ m, I m → I (m.edit (Store.makeStage · version))
  clean : ∀ m, I m → I (m.edit (Store.setFile · version name none))
  append : ∀ m bytes, I m → I (m.edit (Store.appendFile · version name bytes))
  record : ∀ m accepted, I m → I { m with accepted }
  remove : ∀ m, I m → I (m.edit (Store.removeStage · version))
  leave : ∀ m left, I m → I (m.edit (Store.leaveStage · version left))

structure PutStable (version name : String) (I : Machine → Prop) : Prop extends
    StageStable version name I where
  refused : ∀ m t, I m → I (m.edit (fun s => { s with refused := t }))
  files : ∀ m listing, (listedFor listing version).isSome → I m → I (m.edit (fun s => { s with files := some listing }))

def Checking.Of (c : Checking) (version : String) (p : Pointer) (m : Machine) : Prop :=
  c.version = version ∧ c.pointer = p ∧ m.store.stageIno version = some c.ino

namespace StageStable

variable {version name : String} {I : Machine → Prop}

lemma written (h : StageStable version name I) {a : PutArgs} (ha : a.name = name) {m : Machine} (hm : I m)
    (k : ℕ) : I (m.written version a k) := by
  subst ha
  exact h.append _ _ (h.record _ _ hm)

lemma stageBytes (h : StageStable version name I) {io : PutIo} {a : PutArgs} (ha : a.name = name)
    (listed : Bool) : Keeps I (stageBytes io a version listed) := by
  subst ha
  intro m hm
  exact wp_stageBytes hm h.make (fun _ => h.clean) (fun m => h.append m [])
    (fun m hm _ => h.written rfl hm _) (fun m hm k _ _ _ => h.written rfl hm k) (fun _ _ hm => hm)

lemma holdStage (io : PutIo) (a : PutArgs) (p : Pointer) (m : Machine) (hm : I m) :
    wp (holdStage io a version p) (fun c m' => I m' ∧ c.Of version p m') (fun _ => I) m := by
  unfold Update.holdStage
  simp only [wp_bind, wp_get]
  refine wp_must_id ?_ (fun _ => hm)
  exact wp_orRefuse (fun ino hino => ⟨hm, rfl, rfl, hino⟩) (fun _ => hm)

lemma startCheck (h : StageStable version name I) (io : PutIo) (a : PutArgs) (p : Pointer) (m : Machine)
    (hm : I m) : wp (startCheck io a version p) (fun c m' => I m' ∧ c.Of version p m') (fun _ => I) m := by
  unfold Update.startCheck
  simp only [wp_bind]
  refine wp_look_either (wp_ite (fun _ => ?_) (fun _ => holdStage io a p m hm))
    (fun _ => holdStage io a p m hm) (fun _ => hm)
  simp only [wp_bind]
  exact wp_mono (keeps_removeStage h.remove h.leave io.remove m hm) (fun _ _ hm' => hm') (fun _ _ hm' => hm')

lemma pairArrived (h : StageStable version name I) (io : PutIo) (a : PutArgs) (p : Pointer) (m : Machine)
    (hm : I m) : wp (pairArrived io a version p)
      (fun r m' => I m' ∧ ∀ c, r = .inr c → c.Of version p m') (fun _ => I) m := by
  have hcheck := h.startCheck io a p m hm
  have hinl : ∀ c, (Sum.inl (.complete a.name) : Reply ⊕ Checking) = .inr c → c.Of version p m := by
    simp
  unfold Update.pairArrived
  simp only [wp_bind]
  refine wp_look_either (wp_ite (fun _ => ?_) (fun _ => ⟨hm, hinl⟩)) (fun _ => ⟨hm, hinl⟩) (fun _ => hm)
  simp only [wp_bind]
  refine wp_mono hcheck (fun c m' hc => ⟨hc.1, ?_⟩) (fun _ _ hm' => hm')
  rintro c' hc'
  cases hc'
  exact hc.2

end StageStable

lemma wp_putSettle {io : SettleIo} {c : Checking} {checked : Except String String} {free : ℕ}
    {Q : Reply → Machine → Prop}
    (hstop : io.lock ≠ .done ∨ io.readLinks ≠ .done ∨ m.store.stageIno c.version ≠ some c.ino → ∀ e, E e m)
    (hrefuse : ∀ why, wp (refuseChecked io c why : Call Reply) Q E m)
    (hfiles : ∀ listing files, checked = .ok listing → m.store.stageIno c.version = some c.ino →
      (lines listing.toList).head? = some (listingLine "version" c.version) →
      listingLine "sha256" c.pointer.manifestSha256 ∈ lines listing.toList →
      parseFileList listing = .ok files →
      wp (must io.putFiles (.write "files") (fun s => { s with files := some listing }))
        (fun _ => Q (.verified c.name files.length (totalBytes files))) E m) :
    wp (putSettle io c checked free) Q E m := by
  unfold putSettle
  simp only [wp_bind]
  by_cases hlock : io.lock = .done
  swap
  · exact wp_must_id_of_ne hlock (hstop (.inl hlock))
  by_cases hlinks : io.readLinks = .done
  swap
  · rw [hlock]
    exact wp_look_of_ne hlinks (hstop (.inr (.inl hlinks)) _) (hstop (.inr (.inl hlinks)))
  rw [hlock, hlinks]
  refine wp_ite (fun hgone => ?_) (fun hlinked => ?_)
  · exact hstop (.inr (.inr (fun h => hgone (congrArg some (decide_eq_true h))))) _
  have hlinked := of_decide_eq_true (Option.some.inj (not_not.mp hlinked))
  cases checked with
  | error why => exact hrefuse _
  | ok listing =>
    refine wp_ite (fun _ => hrefuse _) (fun hhead => ?_)
    refine wp_ite (fun _ => hrefuse _) (fun hsha => ?_)
    cases hparse : parseFileList listing with
    | error e => exact hrefuse _
    | ok files =>
      refine wp_ite (fun _ => hrefuse _) (fun _ => ?_)
      exact (wp_bind _ _).mpr
        (hfiles listing files rfl hlinked (not_not.mp hhead) (not_not.mp hsha) hparse)

lemma listedFor_isSome {listing version : String} {files : List Entry}
    (hhead : (lines listing.toList).head? = some (listingLine "version" version))
    (hparse : parseFileList listing = .ok files) : listedFor listing version = some files := by
  rw [listedFor, if_pos hhead, hparse]
  rfl

lemma PutStable.putSettle {version name : String} {I : Machine → Prop} (h : PutStable version name I) (io : SettleIo)
    (hc : c.version = version) (checked : Except String String) (free : ℕ) :
    Keeps I (putSettle io c checked free) := by
  subst hc
  intro m hm
  refine wp_putSettle (fun _ _ => hm) (fun why => ?_) ?_
  · exact keeps_refuseChecked (fun m => h.refused m _) (keeps_removeStage h.remove h.leave io.remove) why m hm
  intro listing files _ _ hhead _ hparse
  have hlisted := h.files m listing (by rw [listedFor_isSome hhead hparse]; rfl) hm
  exact wp_mustChange hlisted (fun _ => hm) hlisted

end Kryptik.Kryptikd.Update
