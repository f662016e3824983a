import LinkState.Proofs.Ranges
import LinkState.Proofs.Reachability
import LinkState.Proofs.SnpCodec
import Mathlib.Data.List.TakeWhile

/-!
# Coherence of the pages with the database

The pages that are built so far follow each other without gap or overlap from
the least LSP ID on, and each describes the entries of its range as they are
now.  Installing and removing an LSP discard the page that covers it and all
pages after that one, which are the only ones that can have changed.
-/

namespace LinkState

/-- What a summary says about an LSP, but for its remaining lifetime. -/
def LspSummary.version (summary : LspSummary) : LspId × UInt32 × UInt16 :=
  (summary.id, summary.seqno, summary.checksum)

/-- What the summary of an entry says at any time. -/
def Entry.version (entry : Entry) : LspId × UInt32 × UInt16 :=
  (entry.lsp.id, entry.lsp.seqno, entry.lsp.checksum)

namespace Page

/-- The pages follow each other from the given LSP ID on, and none follows a
page that ends at the greatest LSP ID. -/
def Follow : Option LspId → List Page → Prop
  | _, [] => True
  | none, _ :: _ => False
  | some start, page :: rest => page.start = start ∧ Follow page.stop.successor? rest

def covers (id : LspId) (page : Page) : Bool :=
  ¬ id < page.start ∧ ¬ page.stop < id

theorem Follow.of_append {start : Option LspId} {pages rest : List Page}
    (h : Follow start (pages ++ rest)) : Follow start pages := by
  induction pages generalizing start with
  | nil => trivial
  | cons page pages ih =>
      cases start with
      | none => exact h
      | some start => exact ⟨h.1, ih h.2⟩

/-- What follows a page starts at the successor of its end, if anything does. -/
theorem Follow.rest {start : Option LspId} {page : Page} {rest : List Page}
    (h : Follow start (page :: rest)) :
    rest = [] ∨ ∃ next second others, rest = second :: others ∧
      page.stop.successor? = some next ∧ next.toNat = page.stop.toNat + 1 ∧
        Follow (some next) rest := by
  cases start with
  | none => cases h
  | some start =>
      obtain ⟨-, hrest⟩ := h
      cases rest with
      | nil => exact .inl rfl
      | cons second others =>
          cases hnext : page.stop.successor? with
          | none =>
              rw [hnext] at hrest
              cases hrest
          | some next =>
              rw [hnext] at hrest
              exact .inr ⟨next, second, others, rfl, rfl, LspId.toNat_successor hnext, hrest⟩

def continuation : Option LspId → List Page → Option LspId
  | start, [] => start
  | _, page :: rest => continuation page.stop.successor? rest

theorem Follow.append_one {start : Option LspId} {pages : List Page} {page : Page}
    (h : Follow start pages) (hpage : continuation start pages = some page.start) :
    Follow start (pages ++ [page]) := by
  induction pages generalizing start with
  | nil =>
      obtain rfl : start = some page.start := hpage
      exact ⟨rfl, trivial⟩
  | cons first rest ih =>
      cases start with
      | none => exact h
      | some start => exact ⟨h.1, ih h.2 hpage⟩

theorem continuation_eq (start : Option LspId) (pages : List Page) :
    continuation start pages =
      match pages.getLast? with
      | some page => page.stop.successor?
      | none => start := by
  induction pages generalizing start with
  | nil => rfl
  | cons page rest ih =>
      rw [continuation, ih]
      cases rest with
      | nil => rfl
      | cons second rest => rw [List.getLast?_cons_cons, List.getLast?_cons]

/-- While the last page is missing, the next one starts where the pages go
on. -/
theorem continuation_of_incomplete {pages : List Page} (h : complete pages = false) :
    continuation (some LspId.first) pages = some (nextStart pages) := by
  rw [complete] at h
  rw [nextStart]
  rw [continuation_eq]
  cases hlast : pages.getLast? with
  | none => rfl
  | some page =>
      rw [hlast] at h
      obtain ⟨next, hnext⟩ := LspId.successor?_isSome (x := page.stop) (by simpa using h)
      simp only [hnext, Option.getD_some]

end Page

namespace LevelState

variable {level : Level} {config : Config} {now : Nat} {s t : LevelState}

def pageLimit (s : LevelState) : Nat :=
  max s.pageCapacity 1

/-- A page is as it would be built now, but for the remaining lifetimes. -/
structure Describes (s : LevelState) (page : Page) : Prop where
  ordered : ¬ page.stop < page.start
  entries : page.entries.map LspSummary.version =
    (s.database.range page.start page.stop).map Entry.version
  few : page.entries.length ≤ s.pageLimit
  full : page.stop ≠ LspId.last →
    page.entries.length = s.pageLimit ∧ page.entries.getLast?.map (·.id) = some page.stop
  octets : page.octets = (Snp.make s.level ⟨s.config.system, 0⟩ (some (page.start, page.stop))
    (SnpTlvs.ofSummaries page.entries)).toOctets

/-- The pages are a beginning of the pages of the whole database. -/
structure Paged (s : LevelState) : Prop where
  follow : Page.Follow (some LspId.first) s.pages
  describes : ∀ page ∈ s.pages, s.Describes page

theorem Describes.congr {page : Page} (h : s.Describes page) (hlevel : t.level = s.level)
    (hconfig : t.config = s.config)
    (hrange : t.database.range page.start page.stop = s.database.range page.start page.stop) :
    t.Describes page := by
  have hlimit : t.pageLimit = s.pageLimit := by rw [pageLimit, pageCapacity, hconfig]; rfl
  refine ⟨h.ordered, hrange ▸ h.entries, hlimit ▸ h.few, fun hstop => ?_, ?_⟩
  · rw [hlimit]
    exact h.full hstop
  · rw [hlevel, hconfig]
    exact h.octets

/-! ### Building a page -/

def builtFrom (s : LevelState) (start : LspId) : Page :=
  Page.build s.level ⟨s.config.system, 0⟩ s.pageCapacity s.database s.now start

/-- If more entries follow than fit, the page ends at the last that fits. -/
theorem builtFrom_of_lt {start : LspId} {entry : Entry}
    (hmore : s.pageLimit < (s.database.since start).length)
    (hlast : ((s.database.since start).take s.pageLimit).getLast? = some entry) :
    s.builtFrom start = ⟨start, entry.lsp.id,
      ((s.database.since start).take s.pageLimit).map fun entry => entry.lsp.summary s.now,
      (Snp.make s.level ⟨s.config.system, 0⟩ (some (start, entry.lsp.id)) (SnpTlvs.ofSummaries
        (((s.database.since start).take s.pageLimit).map fun entry =>
          entry.lsp.summary s.now))).toOctets⟩ := by
  have htake : (((s.database.since start).take (s.pageLimit + 1)).map fun entry =>
      entry.lsp.summary s.now).take s.pageLimit =
        ((s.database.since start).take s.pageLimit).map fun entry => entry.lsp.summary s.now := by
    rw [← List.map_take, List.take_take, Nat.min_eq_left (Nat.le_succ _)]
  have hlength : s.pageLimit < (((s.database.since start).take (s.pageLimit + 1)).map fun entry =>
      entry.lsp.summary s.now).length := by
    rw [List.length_map, List.length_take]
    omega
  have hstop : (((((s.database.since start).take s.pageLimit).map fun entry =>
      entry.lsp.summary s.now).getLast?).map (·.id)).getD LspId.last = entry.lsp.id := by
    rw [List.getLast?_map, hlast]
    rfl
  unfold builtFrom Page.build
  change max s.pageCapacity 1 < _ at hlength
  rw [pageLimit] at *
  simp only [htake, hlength, if_true, hstop]

/-- If all entries that follow fit, the page is the last one. -/
theorem builtFrom_of_le {start : LspId}
    (hall : (s.database.since start).length ≤ s.pageLimit) :
    s.builtFrom start = ⟨start, LspId.last,
      (s.database.since start).map fun entry => entry.lsp.summary s.now,
      (Snp.make s.level ⟨s.config.system, 0⟩ (some (start, LspId.last)) (SnpTlvs.ofSummaries
        ((s.database.since start).map fun entry => entry.lsp.summary s.now))).toOctets⟩ := by
  rw [pageLimit] at hall
  unfold builtFrom Page.build
  dsimp only
  rw [List.take_of_length_le (Nat.le_succ_of_le hall), List.length_map, if_neg (Nat.not_lt.2 hall),
    List.take_of_length_le (by rw [List.length_map]; exact hall)]

/-- A page that is built now describes the database as it is. -/
theorem builtFrom_describes (h : s.Consistent) (start : LspId) :
    s.Describes (s.builtFrom start) := by
  have hversions : ∀ entries : List Entry,
      (entries.map fun entry => entry.lsp.summary s.now).map LspSummary.version =
        entries.map Entry.version := by
    intro entries
    rw [List.map_map]
    rfl
  have hpos : 0 < s.pageLimit := Nat.lt_of_lt_of_le Nat.one_pos (Nat.le_max_right _ _)
  rcases Nat.lt_or_ge s.pageLimit (s.database.since start).length with hmore | hall
  · obtain ⟨stop, entry, hstored, hlast, hordered, hne, hrange⟩ :=
      Database.range_take hpos hmore
    have hid : entry.lsp.id = stop := h.keys hstored
    have hbuilt := builtFrom_of_lt hmore hlast
    rw [hbuilt, hid]
    refine ⟨hordered, ?_, ?_, fun _ => ⟨?_, ?_⟩, rfl⟩
    · rw [hversions, hrange]
    · rw [List.length_map, List.length_take]
      exact Nat.min_le_left _ _
    · rw [List.length_map, List.length_take, Nat.min_eq_left (Nat.le_of_lt hmore)]
    · rw [List.getLast?_map, hlast, ← hid]
      rfl
  · rw [builtFrom_of_le hall]
    refine ⟨start.not_last_lt, ?_, ?_, fun hne => absurd rfl hne, rfl⟩
    · rw [hversions, Database.range_last]
    · rw [List.length_map]
      exact hall

/-! ### Keeping the pages coherent -/

namespace Paged

theorem of_pages_eq_nil (h : s.pages = []) : s.Paged where
  follow := by
    rw [h]
    trivial
  describes := by simp [h]

/-- Only the pages before the one that covers an LSP ID are left, and a change
under that ID does not concern them. -/
theorem keepBefore (h : s.Paged) {id : LspId} (hlevel : t.level = s.level)
    (hconfig : t.config = s.config) (hpages : t.pages = Page.keepBefore s.pages id)
    (hrange : ∀ start stop, stop < id →
      t.database.range start stop = s.database.range start stop) : t.Paged := by
  constructor
  · obtain ⟨rest, hrest⟩ := List.takeWhile_prefix (fun page : Page => decide (page.stop < id))
      (l := s.pages)
    have hfollow := h.follow
    rw [← hrest] at hfollow
    rw [hpages]
    exact hfollow.of_append
  · intro page hmem
    rw [hpages] at hmem
    have hbefore : page.stop < id := by simpa using List.mem_takeWhile_imp hmem
    have hkept := h.describes page ((List.takeWhile_subset _) hmem)
    exact hkept.congr hlevel hconfig (hrange _ _ hbefore)

theorem congr (h : s.Paged) (hlevel : t.level = s.level) (hconfig : t.config = s.config)
    (hdatabase : t.database = s.database) (hpages : t.pages = s.pages) : t.Paged := by
  refine ⟨hpages ▸ h.follow, fun page hmem => ?_⟩
  exact (h.describes page (hpages ▸ hmem)).congr hlevel hconfig (by rw [hdatabase])

theorem buildPage (h : s.Paged) (hconsistent : s.Consistent)
    (hincomplete : Page.complete s.pages = false) : s.buildPage.Paged := by
  have hpages : s.buildPage.pages = s.pages ++ [s.builtFrom (Page.nextStart s.pages)] := rfl
  constructor
  · rw [hpages]
    exact h.follow.append_one (Page.continuation_of_incomplete hincomplete)
  · intro page hmem
    rw [hpages] at hmem
    rcases List.mem_append.1 hmem with hold | hnew
    · exact (h.describes page hold).congr rfl rfl rfl
    · rw [List.mem_singleton.1 hnew]
      exact (builtFrom_describes hconsistent _).congr rfl rfl rfl

/-- Every step keeps the pages coherent. -/
theorem step {heard : Lsp → Prop} (h : s.Paged) (hconsistent : s.Consistent)
    (hstep : Step heard s t) : t.Paged := by
  cases hstep.effect with
  | installs hinstalls =>
      obtain ⟨counters, history, number, trace, rfl⟩ := hinstalls
      exact h.keepBefore rfl rfl rfl fun _ _ hless => Database.range_insert_of_lt _ hless
  | removes hstored heq =>
      obtain ⟨trace, hremove⟩ := remove_eq hstored
      rw [heq, hremove]
      exact h.keepBefore rfl rfl rfl fun _ _ hless => Database.range_erase_of_lt hless
  | buildsPage hincomplete heq =>
      rw [heq]
      exact h.buildPage hconsistent hincomplete
  | rearranges hlevel hconfig hdatabase hpages => exact h.congr hlevel hconfig hdatabase hpages

end Paged

theorem Reachable.paged (h : Reachable Proper level config now s) : s.Paged :=
  (h.invariant (fun _ => trivial) Proper.running (.of_pages_eq_nil rfl)
    (fun hsound hpaged hstep => hpaged.step hsound.consistent hstep)
    fun _ _ => .of_pages_eq_nil rfl).2

/-! ### What is sent -/

/-- A page of a reachable state is sent as a complete sequence numbers PDU that
reads back as what it describes. -/
theorem Describes.decode {page : Page} (h : s.Describes page) (time : Nat) :
    Pdu.decode time page.octets = .ok (.snp (Snp.make s.level ⟨s.config.system, 0⟩
      (some (page.start, page.stop)) (SnpTlvs.ofSummaries page.entries))) := by
  have hlength := SnpTlvs.length_le_of_capacity h.few
  rw [h.octets]
  apply Snp.decode_make time s.level _ _ _
  have hmtu := s.config.mtu.toNat_lt
  have hsummary : Tlv.headerSize + Tlv.summarySize = 18 := rfl
  have hheader : Snp.completeHeaderSize = 33 := rfl
  omega

/-! ### Covering the database -/

/-- Pages that follow each other describe the range from the first to the last of
them. -/
theorem versions_of_follow {pages : List Page} {start : LspId} {last : Page}
    (hfollow : Page.Follow (some start) pages) (hdescribes : ∀ page ∈ pages, s.Describes page)
    (hlast : pages.getLast? = some last) :
    (pages.flatMap (·.entries)).map LspSummary.version =
      (s.database.range start last.stop).map Entry.version ∧ ¬ last.stop < start := by
  induction pages generalizing start with
  | nil => cases hlast
  | cons page rest ih =>
      obtain rfl := hfollow.1
      have hpage := hdescribes page List.mem_cons_self
      rcases hfollow.rest with rfl | ⟨next, second, others, rfl, hnext, hsuccessor, hrest⟩
      · obtain rfl : page = last := by simpa using hlast
        refine ⟨?_, hpage.ordered⟩
        rw [List.flatMap_cons, List.flatMap_nil, List.append_nil, hpage.entries]
      · rw [List.getLast?_cons_cons] at hlast
        obtain ⟨hversions, hordered⟩ :=
          ih hrest (fun other hother => hdescribes other (List.mem_cons_of_mem _ hother)) hlast
        rw [List.flatMap_cons, List.map_append, hversions, hpage.entries, ← List.map_append,
          Database.range_append_range hnext hpage.ordered hordered]
        refine ⟨rfl, ?_⟩
        have hstart := hpage.ordered
        rw [LspId.not_lt_iff] at hstart hordered ⊢
        omega

/-- No page covers an LSP ID before the first of them. -/
theorem not_covers_of_lt {pages : List Page} {start id : LspId}
    (hfollow : Page.Follow (some start) pages) (hdescribes : ∀ page ∈ pages, s.Describes page)
    (hless : id < start) : pages.filter (Page.covers id) = [] := by
  induction pages generalizing start with
  | nil => rfl
  | cons page rest ih =>
      obtain rfl := hfollow.1
      have hpage := hdescribes page List.mem_cons_self
      have hskip : Page.covers id page = false := decide_eq_false fun hin => hin.1 hless
      rw [List.filter_cons_of_neg (by simp [hskip])]
      rcases hfollow.rest with rfl | ⟨next, second, others, -, -, hsuccessor, hrest⟩
      · rfl
      · apply ih hrest (fun other hother => hdescribes other (List.mem_cons_of_mem _ hother))
        have hstart := hpage.ordered
        rw [LspId.not_lt_iff] at hstart
        rw [LspId.lt_iff] at hless ⊢
        omega

/-- Exactly one page covers each LSP ID from the first page on, once the last
page is there. -/
theorem covers_once {pages : List Page} {start id : LspId}
    (hfollow : Page.Follow (some start) pages) (hdescribes : ∀ page ∈ pages, s.Describes page)
    (hcomplete : Page.complete pages = true) (hfrom : ¬ id < start) :
    (pages.filter (Page.covers id)).length = 1 := by
  induction pages generalizing start with
  | nil => cases hcomplete
  | cons page rest ih =>
      obtain rfl := hfollow.1
      have hothers : ∀ other ∈ rest, s.Describes other :=
        fun other hother => hdescribes other (List.mem_cons_of_mem _ hother)
      by_cases hupto : page.stop < id
      · have hskip : Page.covers id page = false := decide_eq_false fun hin => hin.2 hupto
        rw [List.filter_cons_of_neg (by simp [hskip])]
        rcases hfollow.rest with rfl | ⟨next, second, others, rfl, -, hsuccessor, hrest⟩
        · have hstop : page.stop = LspId.last := by simpa [Page.complete] using hcomplete
          exact absurd (hstop ▸ hupto) id.not_last_lt
        · rw [Page.complete, List.getLast?_cons_cons] at hcomplete
          apply ih hrest hothers hcomplete
          rw [LspId.lt_iff] at hupto
          rw [LspId.not_lt_iff]
          omega
      · have htake : Page.covers id page = true := decide_eq_true ⟨hfrom, hupto⟩
        have hnone : rest.filter (Page.covers id) = [] := by
          rcases hfollow.rest with rfl | ⟨next, second, others, -, -, hsuccessor, hrest⟩
          · rfl
          · apply not_covers_of_lt hrest hothers
            rw [LspId.not_lt_iff] at hupto
            rw [LspId.lt_iff]
            omega
        rw [List.filter_cons_of_pos htake, hnone]
        rfl

namespace Paged

/-- The complete pages describe every stored LSP once, in the order of the LSP
IDs. -/
theorem versions_of_complete (h : s.Paged) (hcomplete : Page.complete s.pages = true) :
    (s.pages.flatMap (·.entries)).map LspSummary.version =
      s.database.values.map Entry.version := by
  rw [Page.complete] at hcomplete
  split at hcomplete
  · rename_i last hlast
    have hstop : last.stop = LspId.last := by simpa using hcomplete
    rw [(versions_of_follow h.follow h.describes hlast).1, hstop, Database.range_all]
  · cases hcomplete

theorem covers_once (h : s.Paged) (hcomplete : Page.complete s.pages = true) (id : LspId) :
    (s.pages.filter (Page.covers id)).length = 1 :=
  LevelState.covers_once h.follow h.describes hcomplete id.not_lt_first

/-- Only the last page ends at the greatest LSP ID. -/
theorem stop_ne_last {pages : List Page} {start : Option LspId}
    (hfollow : Page.Follow start pages) (hincomplete : Page.complete pages = false) :
    ∀ page ∈ pages, page.stop ≠ LspId.last := by
  induction pages generalizing start with
  | nil => exact fun _ hmem => absurd hmem List.not_mem_nil
  | cons page rest ih =>
      intro other hmem
      rcases hfollow.rest with rfl | ⟨next, second, others, rfl, -, hsuccessor, hrest⟩
      · rw [List.mem_singleton.1 hmem]
        simpa [Page.complete] using hincomplete
      · rw [Page.complete, List.getLast?_cons_cons] at hincomplete
        rcases List.mem_cons.1 hmem with rfl | hother
        · intro hlast
          have hbound := next.toNat_lt_count
          rw [hsuccessor, hlast, LspId.toNat_last] at hbound
          exact Nat.lt_irrefl _ hbound
        · exact ih hrest hincomplete other hother

/-- While the last page is missing, there are no more pages than stored LSPs. -/
theorem length_le_size (h : s.Paged) (hincomplete : Page.complete s.pages = false) :
    s.pages.length ≤ s.database.size := by
  have hnonempty : ∀ page ∈ s.pages, 1 ≤ page.entries.length := by
    intro page hmem
    rw [((h.describes page hmem).full (stop_ne_last h.follow hincomplete page hmem)).1]
    exact Nat.le_max_right _ _
  have hcount : ∀ pages : List Page, (∀ page ∈ pages, 1 ≤ page.entries.length) →
      pages.length ≤ (pages.flatMap (·.entries)).length := by
    intro pages hpages
    induction pages with
    | nil => exact Nat.le_refl _
    | cons page rest ih =>
        have hpage := hpages page List.mem_cons_self
        have hrest := ih fun other hother => hpages other (List.mem_cons_of_mem _ hother)
        rw [List.flatMap_cons, List.length_append, List.length_cons]
        omega
  cases hlast : s.pages.getLast? with
  | none =>
      rw [List.getLast?_eq_none_iff.1 hlast]
      exact Nat.zero_le _
  | some last =>
      have hversions := congrArg List.length (versions_of_follow h.follow h.describes hlast).1
      rw [List.length_map, List.length_map] at hversions
      calc s.pages.length ≤ (s.pages.flatMap (·.entries)).length := hcount s.pages hnonempty
        _ = (s.database.range LspId.first last.stop).length := hversions
        _ ≤ s.database.size := by
            rw [Database.range, Database.select, List.length_map]
            exact List.length_filter_le _ _

end Paged

/-! ### Asking for pages -/

theorem buildPages_of_complete (h : Page.complete s.pages = true) (count : Nat) :
    buildPages count s = s := by
  cases count with
  | zero => rfl
  | succ count => rw [buildPages, if_pos h]

theorem buildPages_add (first second : Nat) (s : LevelState) :
    buildPages (first + second) s = buildPages second (buildPages first s) := by
  induction first generalizing s with
  | zero => rw [Nat.zero_add, buildPages]
  | succ first ih =>
      rw [Nat.add_right_comm, buildPages, buildPages]
      split
      · rename_i hcomplete
        exact (buildPages_of_complete hcomplete second).symm
      · exact ih s.buildPage

/-- Building stops at the last page only. -/
theorem buildPages_length_or (count : Nat) (s : LevelState) :
    Page.complete (buildPages count s).pages = true ∨
      (buildPages count s).pages.length = s.pages.length + count := by
  induction count generalizing s with
  | zero => exact .inr rfl
  | succ count ih =>
      rw [buildPages]
      split
      · rename_i hcomplete
        exact .inl hcomplete
      · apply (ih s.buildPage).imp_right
        intro hlength
        rw [hlength]
        simp [buildPage, tell]
        omega

theorem buildPages_prefix (count : Nat) (s : LevelState) :
    s.pages <+: (buildPages count s).pages := by
  induction count generalizing s with
  | zero => exact List.prefix_rfl
  | succ count ih =>
      rw [buildPages]
      split
      · exact List.prefix_rfl
      · have hone : s.pages <+: s.buildPage.pages := List.prefix_append _ _
        exact hone.trans (ih s.buildPage)

theorem buildPages_database (count : Nat) (s : LevelState) :
    (buildPages count s).database = s.database := by
  obtain ⟨pages, trace, heq⟩ := buildPages_eq count s
  rw [heq]

theorem buildPages_sound (h : s.Consistent) (hpaged : s.Paged) (count : Nat) :
    (buildPages count s).Consistent ∧ (buildPages count s).Paged := by
  have hsteps : Steps (fun _ => True) s (buildPages count s) := buildPages_steps count s
  exact hsteps.invariant (P := fun t => t.Consistent ∧ t.Paged)
    (fun ht hstep => ⟨ht.1.step hstep, ht.2.step ht.1 hstep⟩) ⟨h, hpaged⟩

def allPages (s : LevelState) : List Page :=
  (buildPages (s.database.size + 1) s).pages

theorem allPages_complete (h : s.Consistent) (hpaged : s.Paged) :
    Page.complete s.allPages = true := by
  cases hcomplete : Page.complete s.allPages with
  | true => rfl
  | false =>
      have hlength := (buildPages_sound h hpaged (s.database.size + 1)).2.length_le_size hcomplete
      rw [buildPages_database] at hlength
      rcases buildPages_length_or (s.database.size + 1) s with hdone | hgrown
      · exact absurd hdone (by rw [← allPages, hcomplete]; exact Bool.false_ne_true)
      · omega

/-- Pages that were asked for before make no difference. -/
theorem allPages_buildPages (h : s.Consistent) (hpaged : s.Paged) (count : Nat) :
    (buildPages count s).allPages = s.allPages := by
  have hcomplete := allPages_complete h hpaged
  rw [allPages, buildPages_database, ← buildPages_add, Nat.add_comm, buildPages_add]
  rw [buildPages_of_complete hcomplete]
  rfl

/-- A page that is asked for is the one of its index among all pages, and the
first one if there are fewer. -/
theorem page_fst (h : s.Consistent) (hpaged : s.Paged) (index : Nat) :
    (s.page index).1 = s.allPages[if index < s.allPages.length then index else 0]? := by
  obtain ⟨page, built, hbuilt, hpage, hindex⟩ := s.page_eq index
  have hall := allPages_buildPages h hpaged (index + 1 - s.pages.length)
  have hlength := buildPages_length_or (index + 1 - s.pages.length) s
  rw [← hbuilt] at hall hlength
  rw [hpage, ← hall]
  rcases hlength with hcomplete | hgrown
  · rw [allPages, buildPages_of_complete hcomplete, hindex]
  · have hbefore : index < built.pages.length := by omega
    have hprefix : built.pages <+: built.allPages := buildPages_prefix _ built
    rw [if_pos hbefore] at hindex
    rw [if_pos (Nat.lt_of_lt_of_le hbefore hprefix.length_le),
      List.prefix_iff_getElem?.1 hprefix index hbefore, ← hindex,
      List.getElem?_eq_getElem hbefore]

/-- Whatever pages are asked for, in whatever order, nothing else happens than
that pages are built. -/
theorem asked_eq (s : LevelState) (asked : List Nat) :
    ∃ count, asked.foldl (fun s index => (s.page index).2) s = buildPages count s := by
  induction asked generalizing s with
  | nil => exact ⟨0, rfl⟩
  | cons index rest ih =>
      obtain ⟨page, built, rfl, hpage, -⟩ := s.page_eq index
      obtain ⟨count, hcount⟩ := ih (s.page index).2
      rw [List.foldl_cons, hcount, hpage, ← buildPages_add]
      exact ⟨_, rfl⟩

/-- In every reachable state the pages that are built follow each other from the
least LSP ID on, each describes exactly the entries of its range as they are
stored now, each but the last one of the database is full, and each is sent as a
complete sequence numbers PDU with its range and its summaries.  Building pages
ends with the page that is asked for or with the last one.  The pages are the first
of those which describe every stored LSP once and cover each LSP ID once.
Whatever pages were asked for before, a page is the one of its index among
these, and the first of them if the index is past the last. -/
theorem pages_coherent (h : Reachable Proper level config now s) :
    Page.Follow (some LspId.first) s.pages ∧
    (∀ page ∈ s.pages,
      page.entries.map LspSummary.version =
        (s.database.range page.start page.stop).map Entry.version ∧
      (page.stop ≠ LspId.last → page.entries.length = max 1 s.pageCapacity ∧
        page.entries.getLast?.map (·.id) = some page.stop) ∧
      ∀ time, ∃ snp, Pdu.decode time page.octets = .ok (.snp snp) ∧
        snp.header.kind = .csnp level ∧ snp.source = ⟨config.system, 0⟩ ∧
        snp.range = some (page.start, page.stop) ∧ snp.tlvs.summaries = page.entries) ∧
    (∀ index, index < (s.page index).2.pages.length ∨
      Page.complete (s.page index).2.pages = true) ∧
    ∃ pages : List Page, s.pages <+: pages ∧ Page.complete pages = true ∧
      (pages.flatMap (·.entries)).map LspSummary.version =
        s.database.values.map Entry.version ∧
      (∀ id, (pages.filter (Page.covers id)).length = 1) ∧
      ∀ (asked : List Nat) (index : Nat),
        ((asked.foldl (fun s index => (s.page index).2) s).page index).1 =
          pages[if index < pages.length then index else 0]? := by
  have hconsistent := h.consistent
  have hpaged := h.paged
  obtain ⟨hlevel, hconfig, -⟩ := h.constant
  refine ⟨hpaged.follow, fun page hmem => ?_, fun index => ?_, s.allPages,
    buildPages_prefix _ s, allPages_complete hconsistent hpaged, ?_, fun id => ?_,
    fun asked index => ?_⟩
  · have hdescribes := hpaged.describes page hmem
    refine ⟨hdescribes.entries, fun hstop => ?_, fun time => ⟨_, hdescribes.decode time, ?_, ?_,
      rfl, SnpTlvs.summaries_ofSummaries _⟩⟩
    · rw [Nat.max_comm]
      exact hdescribes.full hstop
    · rw [hlevel]
      rfl
    · rw [hconfig]
      rfl
  · obtain ⟨page, built, hbuilt, hpage, -⟩ := s.page_eq index
    rw [hpage]
    rcases buildPages_length_or (index + 1 - s.pages.length) s with hcomplete | hgrown
    · exact .inr (hbuilt ▸ hcomplete)
    · rw [← hbuilt] at hgrown
      left
      dsimp only
      omega
  · have hall := (buildPages_sound hconsistent hpaged (s.database.size + 1)).2.versions_of_complete
      (allPages_complete hconsistent hpaged)
    rwa [buildPages_database] at hall
  · exact (buildPages_sound hconsistent hpaged (s.database.size + 1)).2.covers_once
      (allPages_complete hconsistent hpaged) id
  · obtain ⟨count, hasked⟩ := asked_eq s asked
    obtain ⟨hconsistent', hpaged'⟩ := buildPages_sound hconsistent hpaged count
    rw [hasked, page_fst hconsistent' hpaged', allPages_buildPages hconsistent hpaged]

/-- The first page ends at the first of two fragments, and the second one is
missing yet. -/
theorem pages_coherent_originated :
    originated.pages.map (fun page => (page.start, page.stop, page.entries.map (·.seqno))) =
      [(LspId.first, LspId.first, [8])] ∧
    Page.complete originated.pages = false ∧
    Page.Follow (some LspId.first) originated.pages :=
  ⟨by decide +kernel, by decide +kernel, (pages_coherent originated_reachable).1⟩

end LevelState

end LinkState
