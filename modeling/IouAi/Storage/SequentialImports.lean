import IouAi.Authority.Lengths
import IouAi.Storage.Imports
import IouAi.Storage.Sequential

/-!
# Imports of decisions, one after the other

The archive after calls that do not overlap (`Sequential`). It is orderly: every file has the whole
text of a verified decision under its digest, and no two decisions are on one event. So an import
that finds a decision on the event of its own one has found that decision itself or a conflict, and
may leave out the other checks (`import_sequential`).
-/

namespace IouAi.Storage

open Authority Checks Files Threads Wire

namespace DecisionArchive

variable (sha256 : Sha256) (hmac : HmacSha256) (key : VerificationKey) (parse : Parse SignedDecision)
  (items : Set SignedDecision)

/-- One call of the archive by itself, or time that passes between two calls. -/
inductive SequentialStep : Disk Digest → Disk Digest → Prop
  | call {program : FileProgram Digest (Except DecisionError (List SignedDecision))}
      {disk disk' : Disk Digest} {result : Except DecisionError (List SignedDecision)}
      (hcall : Call sha256 hmac key parse items program)
      (hrun : Completes semantics program disk result disk') : SequentialStep disk disk'
  | tick {disk disk' : Disk Digest} (htick : Tick disk disk') : SequentialStep disk disk'

/-- The later archives, when calls come one after the other. -/
abbrev Later : Disk Digest → Disk Digest → Prop :=
  Relation.ReflTransGen (SequentialStep sha256 hmac key parse items)

/-- The files are those of verified decisions, of which no two are on one event. -/
structure Orderly (disk : Disk Digest) : Prop where
  finite : ∃ names : List Digest, names.Nodup ∧ ∀ name, name ∈ names ↔ (disk.files name).isSome
  file : ∀ name file, disk.files name = some file → ∃ signed ∈ items,
    verifySignature hmac key signed ∧ decisionFileDigest sha256 signed = name ∧
      file.content = signed.payload
  oneDecision : OneDecision sha256 parse disk

/-- What an import of a decision makes of an archive: when it fails, it leaves the files as they
were; when it succeeds, the text of the decision is in the file under its digest and nowhere else,
and no other file has changed. A decision that was not there before has a valid signature, agrees
with an event of the outbox, and has come in time. -/
structure ImportLaw (outbox? : Option (Outbox sha256)) (current : Calendar.Datetime)
    (signed : SignedDecision) (disk disk' : Disk Digest)
    (result : Except DecisionError (List SignedDecision)) : Prop where
  failed : ∀ error, result = .error error → disk'.files = disk.files
  archived : ∀ found, result = .ok found → ∀ name,
    (disk'.files name).map File.content = some signed.payload
      ↔ name = decisionFileDigest sha256 signed
  others : ∀ name, name ≠ decisionFileDigest sha256 signed → disk'.files name = disk.files name
  known : Holds sha256 parse disk signed → disk'.files = disk.files
  checked : ∀ found, result = .ok found → ¬ Holds sha256 parse disk signed →
    verifySignature hmac key signed ∧ ∃ outbox event, outbox? = some outbox ∧
      findEvent outbox signed.eventDigest = .ok event ∧ Agrees event signed.decision ∧
        InWindow event signed.decision current

variable {sha256 hmac key parse items} {disk disk' : Disk Digest} {signed : SignedDecision}
  {outbox? : Option (Outbox sha256)} {current : Calendar.Datetime}

/-! ## What a reader finds -/

/-- The file of a verified decision is read. -/
theorem decode_payload (hparse : parse signed.payload = some signed)
    (hverify : verifySignature hmac key signed) :
    decode sha256 hmac key parse (decisionFileDigest sha256 signed) (some signed.payload)
      = .ok signed := by
  have hlength := length_payload_le signed
  simp only [decode, readRegular, bind_assoc, pure_bind, hparse]
  have hdigest : ¬ contentDigest sha256 signed.payload ≠ decisionFileDigest sha256 signed :=
    not_not_intro rfl
  rw [raiseIf_bind_of_not (by omega), raiseIf_bind_of_not hdigest,
    raiseIf_bind_of_not (c := _ ≠ _) (not_not_intro rfl),
    raiseIf_bind_of_not (not_not_intro hverify)]
  rfl

variable (hparse : ∀ signed ∈ items, parse signed.payload = some signed)

include hparse

/-- A file in an orderly archive is that of a decision that the archive holds. -/
theorem Orderly.reading (h : Orderly sha256 hmac key parse items disk) {name : Digest}
    (hsome : (disk.files name).isSome) :
    ∃ signed ∈ items, Storage.reading (shelf sha256 hmac key parse) disk name = .ok signed ∧
      verifySignature hmac key signed ∧ decisionFileDigest sha256 signed = name ∧
      Holds sha256 parse disk signed := by
  obtain ⟨file, hfile⟩ := Option.isSome_iff_exists.mp hsome
  obtain ⟨signed, hsigned, hverify, rfl, hcontent⟩ := h.file name file hfile
  refine ⟨signed, hsigned, ?_, hverify, rfl, ⟨file, hfile, hcontent⟩, hparse signed hsigned⟩
  rw [Storage.reading, hfile, Option.map_some, hcontent]
  exact decode_payload (hparse signed hsigned) hverify

/-- A decision that an orderly archive holds is a verified one of the imports. -/
theorem Orderly.of_holds (h : Orderly sha256 hmac key parse items disk)
    (hholds : Holds sha256 parse disk signed) : signed ∈ items ∧ verifySignature hmac key signed := by
  obtain ⟨⟨file, hfile, hcontent⟩, hself⟩ := hholds
  obtain ⟨other, hother, hverify, -, hcontent'⟩ := h.file _ file hfile
  have hsame := hparse other hother
  rw [← hcontent', hcontent, hself] at hsame
  rw [Option.some.inj hsame]
  exact ⟨hother, hverify⟩

/-- A reading of an orderly archive finds the decisions that it holds. -/
theorem Orderly.found (h : Orderly sha256 hmac key parse items disk) {names : List Digest}
    (hnames : ∀ name, name ∈ names ↔ (disk.files name).isSome) :
    ∃ found, (byName names).mapM (Storage.reading (shelf sha256 hmac key parse) disk) = .ok found ∧
      ∀ signed, signed ∈ found ↔ Holds sha256 parse disk signed := by
  have hmem : ∀ name, name ∈ byName names ↔ (disk.files name).isSome := fun name =>
    ((byName_perm names).mem_iff).trans (hnames name)
  have hread : ∀ name ∈ byName names, ∃ signed,
      Storage.reading (shelf sha256 hmac key parse) disk name = .ok signed := by
    intro name hname
    obtain ⟨signed, -, hread, -⟩ := h.reading hparse ((hmem name).mp hname)
    exact ⟨signed, hread⟩
  obtain ⟨found, hfound⟩ := exists_forall₂ hread
  refine ⟨found, mapM_eq_ok_iff_forall₂.mpr hfound, fun signed => ⟨fun hsigned => ?_, fun hholds => ?_⟩⟩
  · obtain ⟨name, -, hread⟩ := exists_of_mem_right hfound hsigned
    obtain ⟨hbytes, rfl, hself⟩ := decode_eq_ok hread
    obtain ⟨file, hfile, hcontent⟩ := Option.map_eq_some_iff.mp hbytes
    exact ⟨⟨file, hfile, hcontent⟩, hself⟩
  · obtain ⟨⟨file, hfile, hcontent⟩, hself⟩ := hholds
    have hsome : (disk.files (decisionFileDigest sha256 signed)).isSome := by
      rw [hfile]
      rfl
    obtain ⟨other, hother, hread'⟩ := exists_of_mem_right hfound.flip ((hmem _).mpr hsome)
    have hread : Storage.reading (shelf sha256 hmac key parse) disk (decisionFileDigest sha256 signed)
        = .ok other := hread'
    obtain ⟨hbytes, -, hother'⟩ := decode_eq_ok hread
    rw [hfile, Option.map_some, hcontent, Option.some.injEq] at hbytes
    rw [← hbytes, hself] at hother'
    rw [Option.some.inj hother']
    exact hother

omit hparse in
/-- An import finds its decision in an archive that holds it. -/
theorem accept_of_holds (h : OneDecision sha256 parse disk) {found : List SignedDecision}
    (hfound : ∀ signed, signed ∈ found ↔ Holds sha256 parse disk signed)
    (hholds : Holds sha256 parse disk signed) :
    accept sha256 outbox? current signed found = .ok none := by
  have hscan : scanDecisions found signed = .ok true := by
    unfold scanDecisions
    split
    · rename_i hnone
      simpa using List.find?_eq_none.mp hnone signed ((hfound signed).mpr hholds)
    · rename_i existing hexisting
      have hevent : existing.eventDigest = signed.eventDigest := by
        simpa using List.find?_some hexisting
      have hsame := h existing signed ((hfound existing).mp (List.mem_of_find?_eq_some hexisting))
        hholds hevent
      rw [hsame, if_pos rfl]
  unfold accept
  rw [hscan]
  rfl

omit hparse in
/-- An import that stores nothing and does not fail has found its text. -/
theorem payload_mem_of_accept {found : List SignedDecision}
    (h : accept sha256 outbox? current signed found = .ok none) :
    ∃ existing ∈ found, existing.payload = signed.payload := by
  obtain ⟨known, hscan, h⟩ := bind_eq_ok.mp h
  cases known with
  | false =>
    cases outbox? with
    | none => cases h
    | some outbox =>
      obtain ⟨_, -, h⟩ := bind_eq_ok.mp h
      cases h
  | true =>
    unfold scanDecisions at hscan
    split at hscan
    · cases hscan
    · rename_i existing hexisting
      split at hscan
      · rename_i hpayload
        exact ⟨existing, List.mem_of_find?_eq_some hexisting, hpayload⟩
      · cases hscan

omit hparse in
/-- A decision is stored when its event has none and it passes the checks. -/
theorem checked_of_accept {found : List SignedDecision} {item : SignedDecision}
    (h : accept sha256 outbox? current signed found = .ok (some item)) :
    item = signed ∧ (∀ other ∈ found, other.eventDigest ≠ signed.eventDigest) ∧
      ∃ outbox event, outbox? = some outbox ∧ findEvent outbox signed.eventDigest = .ok event ∧
        Agrees event signed.decision ∧ InWindow event signed.decision current := by
  obtain ⟨hitem, hscan⟩ := eq_of_accept h
  refine ⟨hitem, ?_, ?_⟩
  · intro other hother hevent
    unfold scanDecisions at hscan
    split at hscan
    · rename_i hnone
      simpa [hevent] using List.find?_eq_none.mp hnone other hother
    · split at hscan <;> cases hscan
  · unfold accept at h
    rw [hscan] at h
    cases outbox? with
    | none => cases h
    | some outbox =>
      have hrest : (checkDecision outbox signed current >>= fun _ => pure (some signed))
          = .ok (some item) := h
      obtain ⟨_, hcheck, -⟩ := bind_eq_ok.mp hrest
      obtain ⟨event, hevent, hcheck⟩ := bind_eq_ok.mp hcheck
      obtain ⟨_, hbinding, hwindow⟩ := bind_eq_ok.mp hcheck
      exact ⟨outbox, event, rfl, hevent, checkBinding_eq_ok.mp hbinding,
        checkWindow_eq_ok.mp hwindow⟩

/-! ## One import -/

/-- How an import on an orderly archive ends: it leaves the files as they are, or it adds the file of
a decision that has passed every check and whose event has no decision yet. -/
inductive Imports (hmac : HmacSha256) (key : VerificationKey) (parse : Parse SignedDecision)
    (outbox? : Option (Outbox sha256)) (current : Calendar.Datetime)
    (signed : SignedDecision) (disk disk' : Disk Digest) :
    Except DecisionError (List SignedDecision) → Prop
  | failed {error : DecisionError} (hfiles : disk'.files = disk.files) :
      Imports hmac key parse outbox? current signed disk disk' (.error error)
  | known {found : List SignedDecision} (hholds : Holds sha256 parse disk signed)
      (hfiles : disk'.files = disk.files) : Imports hmac key parse outbox? current signed disk disk' (.ok found)
  | stored {found : List SignedDecision} {file : File} {outbox : Outbox sha256}
      {event : ApprovalEvent sha256} (hverify : verifySignature hmac key signed)
      (hfree : disk.files (decisionFileDigest sha256 signed) = none)
      (hfiles : disk'.files
        = Function.update disk.files (decisionFileDigest sha256 signed) (some file))
      (hcontent : file.content = signed.payload)
      (hnew : ∀ other, Holds sha256 parse disk other → other.eventDigest ≠ signed.eventDigest)
      (houtbox : outbox? = some outbox) (hevent : findEvent outbox signed.eventDigest = .ok event)
      (hagrees : Agrees event signed.decision) (hwindow : InWindow event signed.decision current) :
      Imports hmac key parse outbox? current signed disk disk' (.ok found)

theorem completes_importSigned (h : Orderly sha256 hmac key parse items disk)
    (hsigned : signed ∈ items) {result : Except DecisionError (List SignedDecision)}
    (hrun : Completes semantics (importSigned sha256 hmac key parse outbox? current signed) disk
      result disk') :
    Imports hmac key parse outbox? current signed disk disk' result := by
  rw [importSigned] at hrun
  split at hrun
  · rename_i hverify
    obtain ⟨names, -, hnames, hend⟩ := (completes_visit rfl).mp hrun
    obtain ⟨found, hread, hfound⟩ := h.found hparse hnames
    rw [show (shelf sha256 hmac key parse).order = byName from rfl, hread] at hend
    simp only at hend
    cases haccept : accept sha256 outbox? current signed found with
    | error error =>
      simp only [haccept] at hend
      obtain ⟨rfl, rfl⟩ := hend
      exact .failed rfl
    | ok item? =>
      cases item? with
      | none =>
        simp only [haccept] at hend
        obtain ⟨rfl, rfl⟩ := hend
        obtain ⟨existing, hexisting, hpayload⟩ := payload_mem_of_accept haccept
        have hholds := (hfound existing).mp hexisting
        have hself := hholds.2
        rw [hpayload, hparse signed hsigned, Option.some.injEq] at hself
        exact .known (hself ▸ hholds) rfl
      | some item =>
        obtain ⟨rfl, hnew, outbox, event, houtbox, hevent, hagrees, hwindow⟩ :=
          checked_of_accept haccept
        have hnew' : ∀ other, Holds sha256 parse disk other →
            other.eventDigest ≠ item.eventDigest :=
          fun other hother => hnew other ((hfound other).mpr hother)
        simp only [haccept] at hend
        obtain ⟨created, s₁, hcreate, hdone⟩ := completes_bind.mp hend
        obtain ⟨rfl, rfl⟩ := completes_done.mp hdone
        rcases completes_createOnly hcreate with ⟨hfree, hfiles, hcontent⟩ | hfiles | ⟨hfile, hfiles⟩
        · exact .stored hverify hfree hfiles hcontent hnew' houtbox hevent hagrees hwindow
        · exact .failed hfiles
        · cases hrecheck : (shelf sha256 hmac key parse).recheck item (some _) with
          | error error => exact .failed hfiles
          | ok u =>
            -- the reading of the archive would have found the decision
            rename_i file
            have hcontent : file.content = item.payload := by
              obtain ⟨bytes, hread, heq⟩ := bind_eq_ok.mp hrecheck
              obtain ⟨-, hbytes⟩ := raiseIf_bind_eq_ok.mp hread
              rw [raiseIf_eq_ok, not_not, ← pure_eq_ok.mp hbytes] at heq
              exact heq
            exact absurd rfl (hnew' item ⟨⟨file, hfile, hcontent⟩, hparse item hsigned⟩)
  · obtain ⟨rfl, rfl⟩ := completes_done.mp hrun
    exact .failed rfl

/-! ## Every archive is orderly -/

omit hparse in
theorem Orderly.of_files (h : Orderly sha256 hmac key parse items disk)
    (hfiles : disk'.files = disk.files) : Orderly sha256 hmac key parse items disk' := by
  obtain ⟨names, hnodup, hnames⟩ := h.finite
  refine ⟨⟨names, hnodup, fun name => by rw [hfiles]; exact hnames name⟩, ?_, ?_⟩
  · intro name file hfile
    rw [hfiles] at hfile
    exact h.file name file hfile
  · intro signed other hsigned hother
    rw [Holds, hfiles] at hsigned hother
    exact h.oneDecision signed other hsigned hother

omit hparse in
theorem orderly_empty : Orderly sha256 hmac key parse items .empty := by
  refine ⟨⟨[], List.nodup_nil, fun name => ?_⟩, ?_, ?_⟩
  · simp [Disk.empty]
  · intro name file hfile
    cases hfile
  · rintro signed other ⟨⟨file, hfile, -⟩, -⟩
    cases hfile

/-- The file of one more decision. -/
theorem Orderly.store (h : Orderly sha256 hmac key parse items disk) (hsigned : signed ∈ items)
    (hverify : verifySignature hmac key signed)
    (hfree : disk.files (decisionFileDigest sha256 signed) = none) {file : File}
    (hfiles : disk'.files
      = Function.update disk.files (decisionFileDigest sha256 signed) (some file))
    (hcontent : file.content = signed.payload)
    (hnew : ∀ other, Holds sha256 parse disk other → other.eventDigest ≠ signed.eventDigest) :
    Orderly sha256 hmac key parse items disk' := by
  have hholds : ∀ other, Holds sha256 parse disk' other →
      other = signed ∨ Holds sha256 parse disk other := by
    rintro other ⟨⟨file', hfile', hcontent'⟩, hself⟩
    by_cases hname : decisionFileDigest sha256 other = decisionFileDigest sha256 signed
    · rw [hfiles, hname, Function.update_self, Option.some.injEq] at hfile'
      rw [← hcontent', ← hfile', hcontent, hparse signed hsigned] at hself
      exact .inl (Option.some.inj hself).symm
    · rw [hfiles, Function.update_of_ne hname] at hfile'
      exact .inr ⟨⟨file', hfile', hcontent'⟩, hself⟩
  obtain ⟨names, hnodup, hnames⟩ := h.finite
  refine ⟨⟨decisionFileDigest sha256 signed :: names, ?_, ?_⟩, ?_, ?_⟩
  · refine List.nodup_cons.mpr ⟨?_, hnodup⟩
    rw [hnames, hfree]
    exact Bool.false_ne_true
  · intro name
    rw [hfiles, List.mem_cons, hnames]
    by_cases hname : name = decisionFileDigest sha256 signed
    · simp [hname]
    · simp [hname]
  · intro name file' hfile'
    by_cases hname : name = decisionFileDigest sha256 signed
    · rw [hfiles, hname, Function.update_self, Option.some.injEq] at hfile'
      exact ⟨signed, hsigned, hverify, hname.symm, hfile' ▸ hcontent⟩
    · rw [hfiles, Function.update_of_ne hname] at hfile'
      exact h.file name file' hfile'
  · intro one other hone hother hevent
    rcases hholds one hone with rfl | hone
    · rcases hholds other hother with rfl | hother
      · rfl
      · exact absurd hevent.symm (hnew other hother)
    · rcases hholds other hother with rfl | hother
      · exact absurd hevent (hnew one hone)
      · exact h.oneDecision one other hone hother hevent

theorem Imports.orderly {result : Except DecisionError (List SignedDecision)}
    (himports : Imports hmac key parse outbox? current signed disk disk' result)
    (h : Orderly sha256 hmac key parse items disk) (hsigned : signed ∈ items) :
    Orderly sha256 hmac key parse items disk' := by
  cases himports with
  | failed hfiles => exact h.of_files hfiles
  | known _ hfiles => exact h.of_files hfiles
  | stored hverify hfree hfiles hcontent hnew =>
    exact h.store hparse hsigned hverify hfree hfiles hcontent hnew

omit hparse in
theorem Imports.holds {result : Except DecisionError (List SignedDecision)} {other : SignedDecision}
    (himports : Imports hmac key parse outbox? current signed disk disk' result)
    (hholds : Holds sha256 parse disk other) : Holds sha256 parse disk' other := by
  cases himports with
  | failed hfiles => rwa [Holds, hfiles]
  | known _ hfiles => rwa [Holds, hfiles]
  | stored _ hfree hfiles =>
    obtain ⟨⟨file, hfile, hcontent⟩, hself⟩ := hholds
    refine ⟨⟨file, ?_, hcontent⟩, hself⟩
    rw [hfiles, Function.update_of_ne, hfile]
    intro hname
    rw [hname, hfree] at hfile
    cases hfile

/-- A step keeps an archive orderly and loses no decision. -/
theorem SequentialStep.keeps (hstep : SequentialStep sha256 hmac key parse items disk disk')
    (h : Orderly sha256 hmac key parse items disk) :
    Orderly sha256 hmac key parse items disk' ∧
      ∀ signed, Holds sha256 parse disk signed → Holds sha256 parse disk' signed := by
  cases hstep with
  | call hcall hrun =>
    cases hcall with
    | importSigned hsigned outbox? current =>
      have himports := completes_importSigned hparse h hsigned hrun
      exact ⟨himports.orderly hparse h hsigned, fun _ => himports.holds⟩
    | verifiedDecisions =>
      obtain ⟨-, -, -, -, rfl⟩ := (completes_readAll rfl).mp hrun
      exact ⟨h, fun _ hholds => hholds⟩
  | tick htick =>
    cases htick
    exact ⟨h.of_files rfl, fun _ hholds => hholds⟩

theorem Later.keeps (hlater : Later sha256 hmac key parse items disk disk')
    (h : Orderly sha256 hmac key parse items disk) :
    Orderly sha256 hmac key parse items disk' ∧
      ∀ signed, Holds sha256 parse disk signed → Holds sha256 parse disk' signed := by
  induction hlater with
  | refl => exact ⟨h, fun _ hholds => hholds⟩
  | tail _ hstep ih =>
    obtain ⟨horderly, hkeeps⟩ := hstep.keeps hparse ih.1
    exact ⟨horderly, fun signed hholds => hkeeps signed (ih.2 signed hholds)⟩

/-! ## The law of imports -/

omit hparse in
/-- The text of a decision that an orderly archive holds is in one file only. -/
theorem Orderly.content_eq (h : Orderly sha256 hmac key parse items disk)
    (hholds : Holds sha256 parse disk signed) (name : Digest) :
    (disk.files name).map File.content = some signed.payload
      ↔ name = decisionFileDigest sha256 signed := by
  constructor
  · intro hread
    obtain ⟨file, hfile, hcontent⟩ := Option.map_eq_some_iff.mp hread
    obtain ⟨other, -, -, rfl, hother⟩ := h.file name file hfile
    rw [decisionFileDigest, decisionFileDigest, ← hother, hcontent]
  · rintro rfl
    obtain ⟨⟨file, hfile, hcontent⟩, -⟩ := hholds
    rw [hfile, Option.map_some, hcontent]

theorem Imports.law {result : Except DecisionError (List SignedDecision)}
    (himports : Imports hmac key parse outbox? current signed disk disk' result)
    (h : Orderly sha256 hmac key parse items disk) (hsigned : signed ∈ items) :
    ImportLaw sha256 hmac key parse outbox? current signed disk disk' result := by
  have hafter := himports.orderly hparse h hsigned
  cases himports with
  | failed hfiles =>
    exact ⟨fun _ _ => hfiles, fun _ hok => (nomatch hok), fun name _ => by rw [hfiles],
      fun _ => hfiles, fun _ hok => (nomatch hok)⟩
  | known hholds hfiles =>
    refine ⟨fun _ herror => (nomatch herror), fun _ _ => ?_, fun name _ => by rw [hfiles],
      fun _ => hfiles, fun _ _ hnot => absurd hholds hnot⟩
    exact hafter.content_eq (by rwa [Holds, hfiles])
  | @stored _ file outbox event hverify hfree hfiles hcontent _ houtbox hevent hagrees hwindow =>
    refine ⟨fun _ herror => (nomatch herror), fun _ _ => ?_, fun name hname => ?_, fun hholds => ?_,
      fun _ _ _ => ⟨hverify, outbox, event, houtbox, hevent, hagrees, hwindow⟩⟩
    · refine hafter.content_eq ⟨⟨file, ?_, hcontent⟩, hparse signed hsigned⟩
      rw [hfiles, Function.update_self]
    · rw [hfiles, Function.update_of_ne hname]
    · obtain ⟨⟨file', hfile', -⟩, -⟩ := hholds
      rw [hfree] at hfile'
      cases hfile'

/-- An import of a decision that the archive holds succeeds and changes nothing. -/
theorem Orderly.reimport (h : Orderly sha256 hmac key parse items disk)
    (hholds : Holds sha256 parse disk signed) {result : Except DecisionError (List SignedDecision)} :
    Completes semantics (importSigned sha256 hmac key parse outbox? current signed) disk result disk'
      → (∃ found, result = .ok found) ∧ disk' = disk := by
  intro hrun
  rw [importSigned, if_pos (h.of_holds hparse hholds).2] at hrun
  obtain ⟨names, -, hnames, hend⟩ := (completes_visit rfl).mp hrun
  obtain ⟨found, hread, hfound⟩ := h.found hparse hnames
  rw [show (shelf sha256 hmac key parse).order = byName from rfl, hread] at hend
  simp only [accept_of_holds h.oneDecision hfound hholds] at hend
  exact ⟨⟨found, hend.1⟩, hend.2⟩

/-- It comes to its end. -/
theorem Orderly.exists_reimport (h : Orderly sha256 hmac key parse items disk)
    (hholds : Holds sha256 parse disk signed) (outbox? : Option (Outbox sha256))
    (current : Calendar.Datetime) :
    ∃ found, Completes semantics (importSigned sha256 hmac key parse outbox? current signed) disk
      (.ok found) disk := by
  obtain ⟨names, hnodup, hnames⟩ := h.finite
  obtain ⟨found, hread, hfound⟩ := h.found hparse hnames
  refine ⟨found, ?_⟩
  rw [importSigned, if_pos (h.of_holds hparse hholds).2]
  refine (completes_visit rfl).mpr ⟨names, hnodup, hnames, ?_⟩
  rw [show (shelf sha256 hmac key parse).order = byName from rfl, hread]
  simp [accept_of_holds h.oneDecision hfound hholds]

end DecisionArchive

end IouAi.Storage
