import Mathlib.Data.List.Find
import NodeProvisioner.Proofs.Template.Renewing

/-! Which template a node is cloned from. Every entry of a snapshot names the region that it was
taken of, so the snapshots of the other regions are passed over, wherever they come in between. -/
namespace NodeProvisioner

namespace TemplateEntry

def isSource (name : String) (e : TemplateEntry) : Bool :=
  e.usability == .available && e.name == name

/-- The template to clone from in a snapshot: the first one in the zone, else the first one on
shared storage. -/
def choose (zone name : String) (snapshot : List TemplateEntry) : Option TemplateEntry :=
  (snapshot.find? fun e => e.isSource name && e.zone == zone) <|>
    snapshot.find? fun e => e.isSource name && e.shared

theorem choose_eq_none_iff {zone name : String} {snapshot : List TemplateEntry} :
    choose zone name snapshot = none ↔ ¬ ∃ e ∈ snapshot, e.usability = .available ∧
      e.name = name ∧ (e.zone = zone ∨ e.shared = true) := by
  simp only [choose, isSource, Option.orElse_eq_orElse, Option.orElse_eq_or, Option.or_eq_none_iff,
    List.find?_eq_none, Bool.and_eq_true, beq_iff_eq]
  constructor
  · rintro ⟨hlocal, hshared⟩ ⟨e, he, husable, hname, hzone | hshare⟩
    · exact hlocal e he ⟨⟨husable, hname⟩, hzone⟩
    · exact hshared e he ⟨⟨husable, hname⟩, hshare⟩
  · intro hnone
    constructor
    · rintro e he ⟨⟨husable, hname⟩, hzone⟩
      exact hnone ⟨e, he, husable, hname, .inl hzone⟩
    · rintro e he ⟨⟨husable, hname⟩, hshare⟩
      exact hnone ⟨e, he, husable, hname, .inr hshare⟩

end TemplateEntry

namespace Inventory

abbrev Walk := List (String × List TemplateEntry)

namespace Walk

def select (w : Walk) (filters : List TemplateFilter) : List TemplateEntry :=
  (w.map (·.2)).flatten.filter fun e =>
    e.usability == .available && filters.all (·.accepts e)

def findForZone (w : Walk) (region zone name : String) : Option TemplateEntry :=
  (w.select [.region region, .name name, .zone zone]).head? <|>
    (w.select [.region region, .name name, .shared]).head?

end Walk

def Labelled (inv : Inventory) : Prop :=
  ∀ region entries, inv.get? region = some entries → ∀ e ∈ entries, e.region = region

section walk
variable {inv : Inventory} {w : Walk} {region : String} {p : TemplateEntry → Bool}

theorem filter_eq_nil_of_other (hp : ∀ e, p e = true → e.region = region)
    (hw : ∀ s ∈ w, s.1 ≠ region ∧ ∀ e ∈ s.2, e.region = s.1) :
    (w.map (·.2)).flatten.filter p = [] := by
  apply List.filter_eq_nil_iff.2
  intro e he hpe
  obtain ⟨entries, hentries, hmem⟩ := List.mem_flatten.1 he
  obtain ⟨s, hs, rfl⟩ := List.mem_map.1 hentries
  obtain ⟨hother, hown⟩ := hw s hs
  exact hother ((hown e hmem).symm.trans (hp e hpe))

theorem filter_of_perm (hinv : inv.Labelled) (hw : w.Perm inv.entries)
    (hp : ∀ e, p e = true → e.region = region) :
    (w.map (·.2)).flatten.filter p = (inv.listRegion region).filter p := by
  have hown : ∀ s ∈ w, inv.get? s.1 = some s.2 := fun s hs => KeyMap.mem_entries.1 (hw.subset hs)
  have hothers {part : Walk} (hpart : part ⊆ w) (hne : ∀ s ∈ part, s.1 ≠ region) :
      (part.map (·.2)).flatten.filter p = [] :=
    filter_eq_nil_of_other hp fun s hs => ⟨hne s hs, hinv _ _ (hown s (hpart hs))⟩
  unfold listRegion
  cases hget : inv.get? region with
  | none =>
    apply hothers (List.Subset.refl w)
    rintro s hs rfl
    rw [hown s hs] at hget
    cases hget
  | some entries =>
    obtain ⟨before, after, rfl⟩ :=
      List.append_of_mem (hw.symm.subset (KeyMap.mem_entries (e := (region, entries)).2 hget))
    -- No other snapshot of the walk has this region, for the keys of a map are distinct.
    have hkeys : (before ++ (region, entries) :: after).Pairwise fun a b => a.1 ≠ b.1 :=
      (hw.pairwise_iff fun hne => Ne.symm hne).2 (inv.ascending.imp KeyMap.ne_of_lt)
    obtain ⟨-, hafter, hbefore⟩ := List.pairwise_append.1 hkeys
    have hleft : (before.map (·.2)).flatten.filter p = [] :=
      hothers (List.subset_append_left _ _) fun s hs => hbefore s hs _ List.mem_cons_self
    have hright : (after.map (·.2)).flatten.filter p = [] :=
      hothers (fun s hs => List.mem_append_right _ (List.mem_cons_of_mem _ hs))
        fun s hs => ((List.pairwise_cons.1 hafter).1 s hs).symm
    simp [hleft, hright]

theorem Labelled.mem_listRegion (hinv : inv.Labelled) :
    ∀ e ∈ inv.listRegion region, e.region = region := by
  unfold listRegion
  cases hget : inv.get? region with
  | none => exact List.forall_mem_nil _
  | some entries => exact hinv region entries hget

theorem Labelled.head?_select (hinv : inv.Labelled) (hw : w.Perm inv.entries)
    (filters : List TemplateFilter) :
    (w.select (.region region :: filters)).head? = (inv.listRegion region).find? fun e =>
      e.usability == .available && filters.all (·.accepts e) := by
  have hp (e : TemplateEntry) (he : (e.usability == .available &&
      (e.region == region && filters.all (·.accepts e))) = true) : e.region = region := by
    simp only [Bool.and_eq_true, beq_iff_eq] at he
    exact he.2.1
  have hselect : (w.select (.region region :: filters)).head? = (inv.listRegion region).find?
      fun e => e.usability == .available &&
        (e.region == region && filters.all (·.accepts e)) := by
    rw [← List.head?_filter, ← filter_of_perm hinv hw hp]
    rfl
  rw [hselect]
  apply List.find?_congr
  intro e he
  rw [beq_iff_eq.2 (hinv.mem_listRegion e he), Bool.true_and]

/-- However the regions are walked, the snapshot of the one that is asked for decides. -/
theorem Labelled.findForZone_eq_choose (hinv : inv.Labelled) (hw : w.Perm inv.entries)
    (zone name : String) :
    w.findForZone region zone name = TemplateEntry.choose zone name (inv.listRegion region) := by
  unfold Walk.findForZone TemplateEntry.choose
  rw [hinv.head?_select hw, hinv.head?_select hw]
  simp only [TemplateEntry.isSource, TemplateFilter.accepts, List.all_cons, List.all_nil,
    Bool.and_true, Bool.and_assoc]

/-- How a template is looked up for the nodes of a region. -/
structure Sourced (inv : Inventory) (region : String) : Prop where
  none_iff : ∀ zone name, inv.findForZone region zone name = none ↔
    ¬ ∃ e ∈ inv.listRegion region, e.usability = .available ∧ e.name = name ∧
      (e.zone = zone ∨ e.shared = true)
  eq_choose : ∀ zone name,
    inv.findForZone region zone name = TemplateEntry.choose zone name (inv.listRegion region)
  any_order : ∀ w : Walk, w.Perm inv.entries → ∀ zone name,
    w.findForZone region zone name = inv.findForZone region zone name

theorem Labelled.sourced (hinv : inv.Labelled) (region : String) : inv.Sourced region := by
  have hchoose (zone name : String) : inv.findForZone region zone name =
      TemplateEntry.choose zone name (inv.listRegion region) :=
    hinv.findForZone_eq_choose (.refl _) zone name
  constructor
  · intro zone name
    rw [hchoose]
    exact TemplateEntry.choose_eq_none_iff
  · exact hchoose
  · intro w hw zone name
    rw [hinv.findForZone_eq_choose hw, hchoose]

end walk

end Inventory

namespace Sync
open Inventory

variable {t past : Trace}

theorem History.labelled (h : History t) (hpast : past <+: t) : (after ∅ past).Labelled :=
  fun _ _ hget e he => (h.sound hpast hget e he).inRegion

/-- Also in the middle of renewals, the template to clone from is that of the region's own snapshot,
whatever those of the other regions are and in whatever order they are walked. -/
theorem findForZone_history : ∀ t past : Trace, History t → past <+: t → ∀ region,
    (after ∅ past).Sourced region ∧
    ∀ t' past' : Trace, History t' → past' <+: t' →
      (after ∅ past').listRegion region = (after ∅ past).listRegion region → ∀ zone name,
        (after ∅ past').findForZone region zone name =
          (after ∅ past).findForZone region zone name := by
  intro t past h hpast region
  have hsourced := (h.labelled hpast).sourced region
  constructor
  · exact hsourced
  · intro t' past' h' hpast' hsame zone name
    rw [((h'.labelled hpast').sourced region).eq_choose, hsame, hsourced.eq_choose]

def renewalOf (region zone : String) (shared : Bool) : Trace :=
  let noble : Location := { machine := 9000, zone, name := "noble", template := true }
  [⟨.connect region, .ok ()⟩, ⟨.hypervisor region .listTemplates, .ok [noble]⟩,
    ⟨.hypervisor region (.readMachine zone 9000), .ok {
      disks := .ofList [("scsi0", { volume := "data:base-9000-disk-0" })] }⟩,
    ⟨.ask (.storage region "data"), some { id := "data", shared }⟩,
    ⟨.memory (.publish region [{
      name := "noble", region, zone, machine := 9000
      fingerprint := Fingerprint.ofPairs [], storageId := some "data", shared
      usability := .available }]), ()⟩]

theorem history_renewalOf (region zone : String) (shared : Bool) :
    History (renewalOf region zone shared) :=
  .region (r := region) (.call _ (.call _ (.call _ (.call _ (.call _ (.done _))))))

/-- The template on shared storage stands in for one in the zone, though another region has one in
a zone of this name. -/
theorem findForZone_history_shared :
    let t := renewalOf "r1" "z1" true ++ renewalOf "r2" "z2" false
    History t ∧
    (∃ e, (after ∅ t).findForZone "r1" "z2" "noble" = some e ∧ e.zone = "z1") ∧
    (∃ e, (Walk.findForZone (after ∅ t).entries.reverse "r1" "z2" "noble") = some e ∧
      e.zone = "z1") ∧
    (after ∅ t).findForZone "r2" "z1" "noble" = none ∧
    (after ∅ (renewalOf "r1" "z1" true)).findForZone "r1" "z2" "noble" =
      (after ∅ t).findForZone "r1" "z2" "noble" := by
  intro t
  have hfirst := history_renewalOf "r1" "z1" true
  have ht : History t := .overlap
    (List.forall_mem_cons.2 ⟨hfirst, List.forall_mem_cons.2
      ⟨history_renewalOf "r2" "z2" false, List.forall_mem_nil _⟩⟩)
    (.flatten [renewalOf "r1" "z1" true, renewalOf "r2" "z2" false])
  obtain ⟨hsourced, helsewhere⟩ := findForZone_history t t ht (List.prefix_refl t) "r1"
  have hother := (findForZone_history t t ht (List.prefix_refl t) "r2").1
  have hfound : ∃ e, (after ∅ t).findForZone "r1" "z2" "noble" = some e ∧ e.zone = "z1" := by
    rw [hsourced.eq_choose]
    exact ⟨_, rfl, rfl⟩
  refine ⟨ht, hfound, ?_, ?_, ?_⟩
  · rw [hsourced.any_order _ (List.reverse_perm _)]
    exact hfound
  · have hlisted : ∃ e, (after ∅ t).listRegion "r2" = [e] ∧ e.zone = "z2" ∧ e.shared = false :=
      ⟨_, rfl, rfl, rfl⟩
    obtain ⟨e, hlist, hzone, hshared⟩ := hlisted
    rw [hother.none_iff, hlist]
    simp [hzone, hshared]
  · exact helsewhere _ _ hfirst (List.prefix_refl _) rfl "z2" "noble"

end Sync
end NodeProvisioner
