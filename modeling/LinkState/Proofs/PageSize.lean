import LinkState.Proofs.PageCoherence
import Mathlib.Order.Bounds.Defs

/-!
# The size of pages

The summaries of a page are grouped into fields of at most fifteen, each with a type and a
length of its own, so that the room they take grows by steps.  The number of summaries in a
page is the greatest that fits all the same.  If the room is enough for one summary at all,
no page is longer than allowed, and no page but the last one could have held another
summary.
-/

namespace LinkState

namespace SnpTlvs

/-- The capacity is the greatest number of summaries whose fields fit. -/
theorem capacity_isGreatest (size : Nat) :
    IsGreatest {count | ∀ summaries : List LspSummary, summaries.length = count →
      (ofSummaries summaries).toOctets.length ≤ size} (capacity size) := by
  constructor
  · intro summaries hlength
    exact length_toOctets_le_iff.2 (Nat.le_of_eq hlength)
  · intro count hfits
    have hshort := hfits (List.replicate count ⟨0, LspId.first, 0, 0⟩) List.length_replicate
    rw [length_toOctets_le_iff, List.length_replicate] at hshort
    exact hshort

end SnpTlvs

theorem Snp.length_toOctets_make (level : Level) (source : NodeId) (range : LspId × LspId)
    (summaries : List LspSummary) :
    (make level source (some range) (.ofSummaries summaries)).toOctets.length =
      completeHeaderSize + (SnpTlvs.ofSummaries summaries).toOctets.length := by
  rw [(make_regular level source (some range) summaries).length_toOctets]
  cases level <;> rfl

namespace LevelState

variable {level : Level} {config : Config} {now : Nat} {s : LevelState} {page : Page}

/-- The octets that are sent for some summaries as a page from one LSP ID to another. -/
def pageOctets (s : LevelState) (start stop : LspId) (summaries : List LspSummary) : Octets :=
  (Snp.make s.level ⟨s.config.system, 0⟩ (some (start, stop)) (.ofSummaries summaries)).toOctets

/-- A page is no longer than allowed, and unless it is the last one, another summary would
have made it longer, wherever it had ended then. -/
structure Sized (s : LevelState) (page : Page) : Prop where
  short : page.octets.length ≤ s.config.mtu.toNat
  tight : page.stop ≠ LspId.last → ∀ (stop : LspId) (more : LspSummary),
    s.config.mtu.toNat < (s.pageOctets page.start stop (page.entries ++ [more])).length

/-- A page holds as many summaries as it may, unless it is the last one. -/
structure Filled (s : LevelState) (page : Page) : Prop where
  few : page.entries.length ≤ s.pageLimit
  full : page.stop ≠ LspId.last → page.entries.length = s.pageLimit
  octets : page.octets = s.pageOctets page.start page.stop page.entries

/-- If there is room for a summary at all, summaries fit into a page just if there are no more
of them than it may hold. -/
theorem length_pageOctets_le_iff (hroom : 51 ≤ s.config.mtu) {start stop : LspId}
    {summaries : List LspSummary} :
    (s.pageOctets start stop summaries).length ≤ s.config.mtu.toNat ↔
      summaries.length ≤ s.pageLimit := by
  have hroom : 51 ≤ s.config.mtu.toNat := UInt16.le_iff_toNat_le.1 hroom
  have hheader : Snp.completeHeaderSize = 33 := rfl
  have hone : 1 ≤ s.pageCapacity := by
    have hfits : (SnpTlvs.ofSummaries [⟨0, LspId.first, 0, 0⟩]).toOctets.length ≤ 18 :=
      SnpTlvs.length_toOctets_le_iff.2 (by decide)
    exact SnpTlvs.length_toOctets_le_iff.1 (Nat.le_trans hfits (by omega))
  have hlimit : s.pageLimit = s.pageCapacity := Nat.max_eq_left hone
  rw [hlimit, pageCapacity, ← SnpTlvs.length_toOctets_le_iff, pageOctets,
    Snp.length_toOctets_make]
  omega

theorem Filled.sized (h : s.Filled page) (hroom : 51 ≤ s.config.mtu) : s.Sized page where
  short := by
    rw [h.octets]
    exact (length_pageOctets_le_iff hroom).2 h.few
  tight := by
    intro hstop stop more
    rw [← Nat.not_le, length_pageOctets_le_iff hroom, List.length_append, h.full hstop]
    exact Nat.not_succ_le_self _

/-- Whatever the database holds, a page is filled when it is built. -/
theorem builtFrom_filled (s : LevelState) (start : LspId) : s.Filled (s.builtFrom start) := by
  have hpos : 0 < s.pageLimit := Nat.lt_of_lt_of_le Nat.one_pos (Nat.le_max_right _ _)
  rcases Nat.lt_or_ge s.pageLimit (s.database.since start).length with hmore | hall
  · have hlength : ((s.database.since start).take s.pageLimit).length = s.pageLimit := by
      rw [List.length_take, Nat.min_eq_left (Nat.le_of_lt hmore)]
    obtain ⟨entry, hlast⟩ : ∃ entry,
        ((s.database.since start).take s.pageLimit).getLast? = some entry :=
      Option.isSome_iff_exists.1 (List.getLast?_isSome.2 fun hnil => by
        rw [hnil] at hlength
        exact Nat.ne_of_lt hpos hlength)
    rw [builtFrom_of_lt hmore hlast]
    have hentries : (((s.database.since start).take s.pageLimit).map fun entry =>
        entry.lsp.summary s.now).length = s.pageLimit := by
      rw [List.length_map, hlength]
    exact ⟨Nat.le_of_eq hentries, fun _ => hentries, rfl⟩
  · rw [builtFrom_of_le hall]
    refine ⟨?_, fun hstop => absurd rfl hstop, rfl⟩
    rw [List.length_map]
    exact hall

theorem Describes.filled (h : s.Describes page) : s.Filled page :=
  ⟨h.few, fun hstop => (h.full hstop).1, h.octets⟩

/-- The number of summaries in a page is the greatest whose fields fit.  If there is room for
one summary at all, this goes for the whole page: each page that is built, whatever the
database holds, and each page that a reachable state has built so far, is no longer than
allowed, and could not have held another summary unless it is the last one. -/
theorem pages_sized :
    (∀ size, IsGreatest {count | ∀ summaries : List LspSummary, summaries.length = count →
      (SnpTlvs.ofSummaries summaries).toOctets.length ≤ size} (SnpTlvs.capacity size)) ∧
    (∀ (s : LevelState) (start : LspId), 51 ≤ s.config.mtu →
      s.Sized (Page.build s.level ⟨s.config.system, 0⟩ s.pageCapacity s.database s.now start)) ∧
    ∀ {level config now s}, Reachable Proper level config now s → 51 ≤ config.mtu →
      ∀ page ∈ s.pages, s.Sized page := by
  refine ⟨SnpTlvs.capacity_isGreatest, fun s start hroom => (s.builtFrom_filled start).sized hroom,
    fun {level config now s} h hroom page hmem => ?_⟩
  have hmtu : 51 ≤ s.config.mtu := by
    rw [h.constant.2.1]
    exact hroom
  exact (h.paged.describes page hmem).filled.sized hmtu

/-- The least room there can be is for one summary, and the first page has one. -/
theorem pages_sized_originated :
    originated.config.mtu = 51 ∧
    originated.pages.map (fun page => (page.entries.length, page.octets.length)) = [(1, 51)] ∧
    (∀ page ∈ originated.pages, originated.Sized page) ∧
    originated.Sized (Page.build originated.level ⟨originated.config.system, 0⟩
      originated.pageCapacity originated.database originated.now ⟨SystemId.zero, 0, 1⟩) :=
  ⟨by decide +kernel, by decide +kernel,
    pages_sized.2.2 originated_reachable (by decide),
    pages_sized.2.1 originated _ (by decide +kernel)⟩

end LevelState

end LinkState
