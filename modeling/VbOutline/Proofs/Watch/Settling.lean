import Mathlib.Algebra.GroupWithZero.Nat
import VbOutline.Proofs.Publisher.Outlook
import VbOutline.Proofs.Workspace.Order
import VbOutline.Watch

/-!
# Where a watch settles

A watch scans documents from time to time and validates what is due in between. Documents come, go,
come back and change between two scans, while jobs wait that hold the texts of earlier ones. If enough
time goes by after the last scan, then the last publication for each of its documents is the validation
of the document beside all others of that scan, and the last one for any document that was there before
and is gone is empty.

A scan that finds nothing new schedules nothing. This is right because the documents are then those of
the scan before, and in the same order: documents are loaded in the order of their paths. To find out
whether a text has changed it is enough to compare digests, if no two texts that occur have the same.
-/

namespace VbOutline

namespace Document

theorem InOrder.eq {documents : List Document} (h : InOrder documents) {d e : Document}
    (hd : d ∈ documents) (he : e ∈ documents) (huri : d.uri = e.uri) : d = e :=
  List.inj_on_of_nodup_map h.distinct hd he huri

/-- There is one order for each set of documents. -/
theorem InOrder.ext {documents others : List Document} (h : InOrder documents)
    (hothers : InOrder others) (hsame : ∀ d, d ∈ documents ↔ d ∈ others) : documents = others := by
  have hperm : documents.Perm others :=
    (List.perm_ext_iff_of_nodup h.distinct.of_map hothers.distinct.of_map).2 hsame
  refine hperm.eq_of_pairwise ?_ h.sorted hothers.sorted
  intro d e hd he hde hed
  have hnames : Path.names d.path = Path.names e.path := Path.namesLe_antisymm hde hed
  have he : e ∈ documents := (hsame e).2 he
  exact h.eq hd he (by rw [h.files d hd, h.files e he, hnames])

end Document

namespace Publisher

/-- No document has two jobs, and none waits longer than the delay. -/
structure Timely (p : Publisher) (now : Nat) : Prop where
  single : p.jobs.Single
  due : ∀ w ∈ p.jobs.waiting, w.due ≤ now + p.delay

theorem Timely.close {p : Publisher} {now : Nat} (h : p.Timely now) (uri : String) :
    (p.close uri).1.Timely now :=
  ⟨h.single.without uri, fun w hw ↦ h.due w (Debouncer.mem_without.1 hw).1⟩

theorem Timely.change {p : Publisher} {now : Nat} (h : p.Timely now) (uri : String) (r : Revision) :
    (p.change now uri r).Timely now := by
  refine ⟨h.single.enter _, fun w hw ↦ ?_⟩
  obtain ⟨hw, _⟩ | rfl := Debouncer.mem_enter.1 hw
  · exact h.due w hw
  · exact Nat.le_refl _

theorem Timely.run {p : Publisher} {now : Nat} (h : p.Timely now) (time : Nat) :
    (p.run (now + time)).1.Timely (now + time) := by
  refine ⟨(h.single.wakeAll _).1, fun w hw ↦ ?_⟩
  have hdue : w.due ≤ now + p.delay := h.due w (h.single.mem_run hw).1
  change w.due ≤ now + time + p.delay
  omega

end Publisher

namespace Watch

open Publisher

theorem closeAll_fields (p : Publisher) (documents : List Document) :
    (closeAll p documents).1.options = p.options ∧ (closeAll p documents).1.delay = p.delay := by
  induction documents generalizing p with
  | nil => exact ⟨rfl, rfl⟩
  | cons d documents ih => exact ih _

theorem timely_closeAll {p : Publisher} {now : Nat} (h : p.Timely now) (documents : List Document) :
    (closeAll p documents).1.Timely now := by
  induction documents generalizing p with
  | nil => exact h
  | cons d documents ih => exact ih (h.close d.uri)

/-- Closing documents clears them and leaves the others as they are. -/
theorem outlook?_closeAll (p : Publisher) (sent : List Publication) (documents : List Document)
    (uri : String) :
    (closeAll p documents).1.outlook? (sent ++ (closeAll p documents).2) uri =
      if uri ∈ documents.map (·.uri) then some ⟨uri, []⟩ else p.outlook? sent uri := by
  induction documents generalizing p sent with
  | nil => simp [closeAll]
  | cons d documents ih =>
    simp only [closeAll]
    rw [List.append_cons, ih, List.map_cons]
    by_cases hrest : uri ∈ documents.map (·.uri)
    · rw [if_pos hrest, if_pos (List.mem_cons_of_mem _ hrest)]
    · rw [if_neg hrest]
      by_cases hfirst : uri = d.uri
      · rw [if_pos (hfirst ▸ List.mem_cons_self), hfirst]
        exact p.outlook?_close sent d.uri
      · rw [if_neg (by simpa [hfirst] using hrest)]
        exact p.outlook?_close_of_ne sent (Ne.symm hfirst)

theorem changeAll_fields (p : Publisher) (now : Nat) (outlines : List DocumentOutline)
    (documents : List Document) :
    (changeAll p now outlines documents).options = p.options ∧
      (changeAll p now outlines documents).delay = p.delay := by
  induction documents generalizing p with
  | nil => exact ⟨rfl, rfl⟩
  | cons d documents ih => exact ih _

theorem timely_changeAll {p : Publisher} {now : Nat} (h : p.Timely now)
    (outlines : List DocumentOutline) (documents : List Document) :
    (changeAll p now outlines documents).Timely now := by
  induction documents generalizing p with
  | nil => exact h
  | cons d documents ih => exact ih (h.change d.uri _)

theorem outlook?_changeAll_of_not_mem (p : Publisher) (sent : List Publication) (now : Nat)
    (outlines : List DocumentOutline) {documents : List Document} {uri : String}
    (h : uri ∉ documents.map (·.uri)) :
    (changeAll p now outlines documents).outlook? sent uri = p.outlook? sent uri := by
  induction documents generalizing p with
  | nil => rfl
  | cons d documents ih =>
    rw [List.map_cons, List.mem_cons, not_or] at h
    rw [changeAll, ih _ h.2]
    exact p.outlook?_change_of_ne sent now (Ne.symm h.1) _

/-- Each document is going to be validated beside the others. -/
theorem outlook?_changeAll (p : Publisher) (sent : List Publication) (now : Nat)
    (outlines : List DocumentOutline) {documents : List Document}
    (hdistinct : (documents.map (·.uri)).Nodup) {d : Document} (hd : d ∈ documents) :
    (changeAll p now outlines documents).outlook? sent d.uri =
      some ⟨d.uri, Check.validate p.options d.text (DocumentOutline.others outlines d.uri)⟩ := by
  induction documents generalizing p with
  | nil => exact absurd hd List.not_mem_nil
  | cons e documents ih =>
    rw [List.map_cons, List.nodup_cons] at hdistinct
    rw [changeAll]
    obtain rfl | hd := List.mem_cons.1 hd
    · rw [outlook?_changeAll_of_not_mem _ _ _ _ hdistinct.1]
      exact p.outlook?_change sent now d.uri _
    · exact ih _ hdistinct.2 hd

/-! ## Scans -/

section

variable {β : Type} [BEq β] (digest : Text → β) (w : Watch)

/-- Whether a document was there in the last scan and its text had the same digest. -/
def isKnownBy (d : Document) : Bool :=
  w.seen.any fun e ↦ e.uri == d.uri && digest e.text == digest d.text

/-- Looks at the documents that are there now, and at no more of their texts than the digests. -/
def rescanBy (now : Nat) (documents : List Document) : Watch × List Publication :=
  let gone := w.gone documents
  let closed := closeAll w.publisher gone
  if gone.isEmpty && documents.all (w.isKnownBy digest) then
    ({ w with publisher := closed.1 }, closed.2)
  else
    let outlines := documents.map DocumentOutline.ofDocument
    (⟨changeAll closed.1 now outlines documents, documents⟩, closed.2)

variable [LawfulBEq β] {digest} {w}

/-- No two texts of the documents have the same digest. -/
def Distinguishes {β : Type} (digest : Text → β) (documents : List Document) : Prop :=
  ∀ d ∈ documents, ∀ e ∈ documents, digest d.text = digest e.text → d.text = e.text

theorem Distinguishes.left {β : Type} {digest : Text → β} {documents more : List Document}
    (h : Distinguishes digest (documents ++ more)) : Distinguishes digest documents := fun d hd e he ↦
  h d (List.mem_append_left _ hd) e (List.mem_append_left _ he)

/-- A scan compares texts, if no two texts that it sees have the same digest. -/
theorem rescanBy_eq {documents : List Document}
    (h : ∀ d ∈ w.seen, ∀ e ∈ documents, digest d.text = digest e.text → d.text = e.text) (now : Nat) :
    w.rescanBy digest now documents = w.rescan now documents := by
  have hknown : documents.all (w.isKnownBy digest) = documents.all w.isKnown := by
    rw [Bool.eq_iff_iff, List.all_eq_true, List.all_eq_true]
    refine forall₂_congr fun e he ↦ ?_
    simp only [isKnownBy, isKnown, List.any_eq_true, Bool.and_eq_true, beq_iff_eq]
    refine exists_congr fun d ↦ and_congr_right fun hd ↦ and_congr_right fun _ ↦ ?_
    exact ⟨h d hd e he, congrArg digest⟩
  rw [rescanBy, hknown]
  rfl

end

theorem mem_gone {w : Watch} {documents : List Document} {d : Document} :
    d ∈ w.gone documents ↔ d ∈ w.seen ∧ d.uri ∉ documents.map (·.uri) := by
  simp [gone]

/-- If a scan finds nothing new, its documents are those of the scan before. -/
theorem seen_eq {w : Watch} {documents : List Document} (hseen : Document.InOrder w.seen)
    (hdocuments : Document.InOrder documents) (hgone : w.gone documents = [])
    (hknown : documents.all w.isKnown) : w.seen = documents := by
  have hmem {d : Document} (hd : d ∈ documents) : d ∈ w.seen := by
    have hd := List.all_eq_true.1 hknown d hd
    simp only [isKnown, List.any_eq_true, Bool.and_eq_true, beq_iff_eq] at hd
    obtain ⟨e, he, huri, htext⟩ := hd
    obtain rfl : e = d := by
      cases e
      cases d
      simp_all
    exact he
  -- The other inclusion: nothing is gone, and the document with the same URI was there before.
  refine hseen.ext hdocuments fun d ↦ ⟨fun hd ↦ ?_, hmem⟩
  have hthere : d.uri ∈ documents.map (·.uri) := by
    by_contra hnot
    exact List.not_mem_nil (hgone ▸ mem_gone.2 ⟨hd, hnot⟩)
  obtain ⟨e, he, huri⟩ := List.mem_map.1 hthere
  rwa [← hseen.eq (hmem he) hd huri]

/-- A scan finds the documents of the scan before, or it closes those that are gone and schedules
all others. -/
theorem rescan_cases {w : Watch} {documents : List Document} (hseen : Document.InOrder w.seen)
    (hdocuments : Document.InOrder documents) (now : Nat) :
    (w.seen = documents ∧ w.rescan now documents = (w, [])) ∨
    w.rescan now documents =
      (⟨changeAll (closeAll w.publisher (w.gone documents)).1 now
          (documents.map DocumentOutline.ofDocument) documents, documents⟩,
        (closeAll w.publisher (w.gone documents)).2) := by
  rw [rescan]
  by_cases hnew : (w.gone documents).isEmpty && documents.all w.isKnown
  · left
    rw [if_pos hnew]
    rw [Bool.and_eq_true, List.isEmpty_iff] at hnew
    rw [hnew.1]
    exact ⟨seen_eq hseen hdocuments hnew.1 hnew.2, rfl⟩
  · right
    rw [if_neg hnew]

/-! ## The course of a watch -/

inductive Event where
  | scan (documents : List Document)
  | pass (time : Nat)

/-- The documents of a scan. -/
def Event.documents : Event → List Document
  | .scan documents => documents
  | .pass _ => []

/-- A watch with the time and what it has published. -/
structure Course where
  watch : Watch
  now : Nat
  sent : List Publication

namespace Course

def start (options : Check.Options) (delay : Nat) : Course := ⟨.start options delay, 0, []⟩

section

variable {β : Type} [BEq β] (digest : Text → β)

/-- What happens in one piece: a scan, or the passing of time, in which all is validated that is
due. -/
def step (c : Course) : Event → Course
  | .scan documents =>
    let scanned := c.watch.rescanBy digest c.now documents
    { c with watch := scanned.1, sent := c.sent ++ scanned.2 }
  | .pass time =>
    let ran := c.watch.run (c.now + time)
    ⟨ran.1, c.now + time, c.sent ++ ran.2⟩

def after (options : Check.Options) (delay : Nat) (events : List Event) : Course :=
  events.foldl (step digest) (start options delay)

end

/-- The last publication for a document. -/
def last? (c : Course) (uri : String) : Option Publication := (Session.about uri c.sent).getLast?

def outlook? (c : Course) (uri : String) : Option Publication :=
  c.watch.publisher.outlook? c.sent uri

/-- The diagnostics of a document beside all documents of a scan. -/
def verdict (options : Check.Options) (documents : List Document) (d : Document) : Publication :=
  ⟨d.uri, Check.validateAmong options (documents.map .ofDocument) d⟩

/-- What holds at any time, `earlier` being the documents of all scans so far. -/
structure Tracks (options : Check.Options) (delay : Nat) (earlier : List Document) (c : Course) :
    Prop where
  options_eq : c.watch.publisher.options = options
  delay_eq : c.watch.publisher.delay = delay
  timely : c.watch.publisher.Timely c.now
  inOrder : Document.InOrder c.watch.seen
  occurred : c.watch.seen ⊆ earlier
  present : ∀ d ∈ c.watch.seen, c.outlook? d.uri = some (verdict options c.watch.seen d)
  absent : ∀ d ∈ earlier, d.uri ∉ c.watch.seen.map (·.uri) → c.outlook? d.uri = some ⟨d.uri, []⟩

section

variable {options : Check.Options} {delay : Nat} {earlier : List Document} {c : Course}

theorem tracks_start (options : Check.Options) (delay : Nat) :
    (start options delay).Tracks options delay [] where
  options_eq := rfl
  delay_eq := rfl
  timely := ⟨List.nodup_nil, List.forall_mem_nil _⟩
  inOrder := ⟨List.nodup_nil, .nil, List.forall_mem_nil _⟩
  occurred := List.Subset.refl _
  present := List.forall_mem_nil _
  absent := List.forall_mem_nil _

variable {β : Type} [BEq β] (digest : Text → β)

theorem Tracks.pass (h : c.Tracks options delay earlier) (time : Nat) :
    (c.step digest (.pass time)).Tracks options delay earlier := by
  have houtlook (uri : String) : (c.step digest (.pass time)).outlook? uri = c.outlook? uri :=
    Publisher.outlook?_run c.sent h.timely.single (c.now + time) uri
  refine ⟨h.options_eq, h.delay_eq, h.timely.run time, h.inOrder, h.occurred, ?_, ?_⟩
  · intro d hd
    rw [houtlook]
    exact h.present d hd
  · intro d hd hnot
    rw [houtlook]
    exact h.absent d hd hnot

/-- While time goes by nothing is scheduled. -/
theorem Tracks.passes (h : c.Tracks options delay earlier) (times : List Nat) :
    ((times.map .pass).foldl (step digest) c).Tracks options delay earlier ∧
    ((times.map .pass).foldl (step digest) c).watch.seen = c.watch.seen ∧
    ((times.map .pass).foldl (step digest) c).now = c.now + times.sum ∧
    ((times.map .pass).foldl (step digest) c).watch.publisher.jobs.waiting ⊆
      c.watch.publisher.jobs.waiting := by
  induction times generalizing c with
  | nil => exact ⟨h, rfl, rfl, List.Subset.refl _⟩
  | cons time times ih =>
    obtain ⟨htracks, hseen, hnow, hwaiting⟩ := ih (h.pass digest time)
    refine ⟨htracks, hseen, ?_, ?_⟩
    · rw [List.sum_cons, ← Nat.add_assoc]
      exact hnow
    · exact fun w hw ↦ (h.timely.single.mem_run (hwaiting hw)).1

/-- Once the delay has passed, no job waits. -/
theorem Tracks.pending_eq_zero (h : c.Tracks options delay earlier) {times : List Nat}
    (htimes : times ≠ []) (hdelay : delay ≤ times.sum) :
    ((times.map .pass).foldl (step digest) c).watch.publisher.pending = 0 := by
  obtain ⟨times, time, rfl⟩ := (List.eq_nil_or_concat' times).resolve_left htimes
  obtain ⟨htracks, _, hnow, hwaiting⟩ := h.passes digest times
  rw [List.map_append, List.map_singleton, List.foldl_append, List.foldl_cons, List.foldl_nil]
  refine List.length_eq_zero_iff.2 (List.eq_nil_iff_forall_not_mem.2 fun w hw ↦ ?_)
  obtain ⟨hw, hlate⟩ := htracks.timely.single.mem_run hw
  have hdue := h.timely.due w (hwaiting hw)
  rw [h.delay_eq] at hdue
  rw [List.sum_append, List.sum_singleton] at hdelay
  omega

/-- The documents that are gone have been cleared, and the others will be. -/
theorem Tracks.outlook?_closeAll_gone (h : c.Tracks options delay earlier)
    (documents : List Document) {d : Document} (hd : d ∈ earlier)
    (hnot : d.uri ∉ documents.map (·.uri)) :
    (closeAll c.watch.publisher (c.watch.gone documents)).1.outlook?
      (c.sent ++ (closeAll c.watch.publisher (c.watch.gone documents)).2) d.uri =
        some ⟨d.uri, []⟩ := by
  rw [outlook?_closeAll]
  split
  · rfl
  · next hgone =>
    refine h.absent d hd fun hseen ↦ hgone ?_
    obtain ⟨e, he, huri⟩ := List.mem_map.1 hseen
    exact List.mem_map.2 ⟨e, mem_gone.2 ⟨he, huri ▸ hnot⟩, huri⟩

variable {digest} [LawfulBEq β]

/-- After a scan its documents are those that are tracked. -/
theorem Tracks.scan (h : c.Tracks options delay earlier) {documents : List Document}
    (hdocuments : Document.InOrder documents)
    (hdigest : Distinguishes digest (earlier ++ documents)) :
    (c.step digest (.scan documents)).Tracks options delay (earlier ++ documents) ∧
      (c.step digest (.scan documents)).watch.seen = documents := by
  have hcompare := rescanBy_eq (w := c.watch) (fun d hd e he ↦
    hdigest d (List.mem_append_left _ (h.occurred hd)) e (List.mem_append_right _ he)) c.now
  obtain ⟨hseen, hscan⟩ | hscan := rescan_cases h.inOrder hdocuments c.now
  · have hsame : c.step digest (.scan documents) = c := by
      rw [step, hcompare, hscan, List.append_nil]
    rw [hsame]
    refine ⟨{ h with occurred := List.subset_append_of_subset_left _ h.occurred, absent := ?_ }, hseen⟩
    intro d hd hnot
    refine h.absent d ((List.mem_append.1 hd).resolve_right fun hd ↦ hnot ?_) hnot
    exact hseen ▸ List.mem_map_of_mem hd
  · rw [step, hcompare, hscan]
    obtain ⟨hoptions, hdelay⟩ := closeAll_fields c.watch.publisher (c.watch.gone documents)
    obtain ⟨hoptions', hdelay'⟩ := changeAll_fields
      (closeAll c.watch.publisher (c.watch.gone documents)).1 c.now
      (documents.map DocumentOutline.ofDocument) documents
    refine ⟨⟨hoptions'.trans (hoptions.trans h.options_eq),
      hdelay'.trans (hdelay.trans h.delay_eq),
      timely_changeAll (timely_closeAll h.timely _) _ _, hdocuments,
      List.subset_append_right _ _, ?_, ?_⟩, rfl⟩
    · intro d hd
      rw [verdict, Check.validateAmong, ← h.options_eq, ← hoptions]
      exact outlook?_changeAll _ _ c.now _ hdocuments.distinct hd
    · intro d hd hnot
      have hd : d ∈ earlier :=
        (List.mem_append.1 hd).resolve_right fun hd ↦ hnot (List.mem_map_of_mem hd)
      exact (outlook?_changeAll_of_not_mem _ _ c.now _ hnot).trans
        (h.outlook?_closeAll_gone documents hd hnot)

theorem tracks_after (options : Check.Options) (delay : Nat) {events : List Event}
    (hinOrder : ∀ documents, .scan documents ∈ events → Document.InOrder documents)
    (hdigest : Distinguishes digest (events.flatMap Event.documents)) :
    (after digest options delay events).Tracks options delay (events.flatMap Event.documents) := by
  induction events using List.reverseRecOn with
  | nil => exact tracks_start options delay
  | append_singleton events event ih =>
    rw [List.flatMap_append, List.flatMap_singleton] at hdigest ⊢
    have hbefore := ih (fun documents h ↦ hinOrder documents (List.mem_append_left _ h)) hdigest.left
    rw [after, List.foldl_append, List.foldl_cons, List.foldl_nil]
    cases event with
    | scan documents =>
      have hdocuments := hinOrder documents (List.mem_append_right _ List.mem_cons_self)
      exact (hbefore.scan hdocuments hdigest).1
    | pass time =>
      rw [Event.documents, List.append_nil]
      exact hbefore.pass digest time

/-- After the last scan the watch knows its documents. Once no job waits, which is so at the latest
when the delay has passed, the last publication for each of them is its validation beside the others,
and the last one for each document that was there before and is gone is empty. -/
theorem last_of_settled (options : Check.Options) (delay : Nat) {before : List Event}
    {documents : List Document} (times : List Nat)
    (hinOrder : ∀ ds, .scan ds ∈ before → Document.InOrder ds)
    (hdocuments : Document.InOrder documents)
    (hdigest : Distinguishes digest (before.flatMap Event.documents ++ documents)) :
    let final := after digest options delay (before ++ .scan documents :: times.map .pass)
    final.watch.seen = documents ∧
    (times ≠ [] → delay ≤ times.sum → final.watch.publisher.pending = 0) ∧
    (final.watch.publisher.pending = 0 →
      (∀ d ∈ documents, final.last? d.uri =
        some ⟨d.uri, Check.validateAmong options (documents.map .ofDocument) d⟩) ∧
      ∀ d ∈ before.flatMap Event.documents, d.uri ∉ documents.map (·.uri) →
        final.last? d.uri = some ⟨d.uri, []⟩) := by
  intro final
  have hbefore := tracks_after options delay hinOrder hdigest.left
  obtain ⟨hscanned, hseen⟩ := hbefore.scan hdocuments hdigest
  have hfinal : final = (times.map .pass).foldl (step digest)
      ((after digest options delay before).step digest (.scan documents)) := List.foldl_append
  obtain ⟨htracks, hkept, _⟩ := hscanned.passes digest times
  rw [← hfinal] at htracks hkept
  rw [hseen] at hkept
  refine ⟨hkept, fun htimes hdelay ↦ ?_, fun hquiet ↦ ?_⟩
  · rw [hfinal]
    exact hscanned.pending_eq_zero digest htimes hdelay
  have hlast (uri : String) : final.last? uri = final.outlook? uri :=
    (Publisher.outlook?_of_pending _ final.sent hquiet uri).symm
  refine ⟨fun d hd ↦ ?_, fun d hd hnot ↦ ?_⟩
  · rw [hlast, htracks.present d (hkept ▸ hd), hkept]
    rfl
  · rw [hlast]
    exact htracks.absent d (List.mem_append_left _ hd) (hkept ▸ hnot)

end

/-- A digest of 64 bits. -/
def sumDigest (text : Text) : UInt64 := text.foldl (fun sum c ↦ sum * 31 + c.val.toUInt64) 7

def openA : Document := .ofFile "/w/A.vb".toList "Class A".toList

def closedA : Document := .ofFile "/w/A.vb".toList "Class A\nEnd Class".toList

def openB : Document := .ofFile "/w/B.vb".toList "Class B".toList

/-- One document goes and comes back with another text, and then the other one goes. -/
def comings : List Event :=
  [.scan [openA, openB], .pass 3, .scan [openB], .pass 3, .scan [closedA, openB], .pass 3]

theorem last_of_settled_comings :
    (∀ ds, .scan ds ∈ comings → Document.InOrder ds) ∧ Document.InOrder [closedA] ∧
    Distinguishes sumDigest (comings.flatMap Event.documents ++ [closedA]) ∧
    (after sumDigest ⟨120, []⟩ 10 (comings ++ [.scan [closedA], .pass 4, .pass 6])).last? closedA.uri =
      some ⟨closedA.uri, Check.validateAmong ⟨120, []⟩ [.ofDocument closedA] closedA⟩ ∧
    (after sumDigest ⟨120, []⟩ 10 (comings ++ [.scan [closedA], .pass 4, .pass 6])).last? openB.uri =
      some ⟨openB.uri, []⟩ := by
  have hboth : Document.InOrder [openA, openB] :=
    ⟨by decide +kernel, by decide +kernel, by decide +kernel⟩
  have hone : Document.InOrder [openB] := ⟨by decide +kernel, by decide +kernel, by decide +kernel⟩
  have hback : Document.InOrder [closedA, openB] :=
    ⟨by decide +kernel, by decide +kernel, by decide +kernel⟩
  have hinOrder : ∀ ds, .scan ds ∈ comings → Document.InOrder ds := by
    simp [comings, hboth, hone, hback]
  have hlast : Document.InOrder [closedA] :=
    ⟨by decide +kernel, by decide +kernel, by decide +kernel⟩
  have hdigest : Distinguishes sumDigest (comings.flatMap Event.documents ++ [closedA]) := by
    unfold Distinguishes
    decide +kernel
  obtain ⟨_, hquiet, hsettled⟩ := last_of_settled ⟨120, []⟩ 10 [4, 6] hinOrder hlast hdigest
  obtain ⟨hpresent, habsent⟩ := hsettled (hquiet (by decide) (by decide))
  refine ⟨hinOrder, hlast, hdigest, hpresent closedA List.mem_cons_self, ?_⟩
  exact habsent openB (by decide +kernel) (by decide +kernel)

end Course

end Watch

end VbOutline
