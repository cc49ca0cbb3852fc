import Mathlib.Data.List.Nodup
import Mathlib.Data.List.Perm.Basic

/-!
Bringing the entries of a list in line with requests, one request after another. A
request is either for entries that are there, which it settles in place, or for an
entry that is missing, which is added at the end. No two requests are for one entry,
so that the order of the requests cannot matter to the entries that were there.
-/

namespace Cirrusync.Sequence

variable {E R : Type} (targets : E → R → Bool) (settle : R → E → E) (makes : R → E → Prop)

/-- One request on an entry. -/
def touch (request : R) (entry : E) : E :=
  if targets entry request then settle request entry else entry

/-- All requests on an entry. -/
def settleBy (requests : List R) (entry : E) : E :=
  match requests.find? (targets entry) with
  | some request => settle request entry
  | none => entry

/-- The requests for entries that are missing. -/
def absent (entries : List E) (requests : List R) : List R :=
  requests.filter fun request => !entries.any (targets · request)

/-- The entries settled in place, and after them one entry for each absent request. -/
def Reconciled (requests : List R) (entries current : List E) : Prop :=
  ∃ order created, order.Perm (absent targets entries requests) ∧
    List.Forall₂ makes order created ∧
    current = entries.map (settleBy targets settle requests) ++ created

/-- Two lists that differ at most in entries made for the same requests. -/
def SameUpToMade (current current' : List E) : Prop :=
  ∃ kept order created order' created', current = kept ++ created ∧
    current' = kept ++ created' ∧ order.Perm order' ∧ List.Forall₂ makes order created ∧
    List.Forall₂ makes order' created'

/-- No two requests are for one entry. -/
def Exclusive (requests : List R) : Prop :=
  ∀ request ∈ requests, ∀ request' ∈ requests, ∀ entry,
    targets entry request = true → targets entry request' = true → request = request'

/-- A settled entry is still that of the same requests, and an entry that is made for
a request is that of the request. -/
structure Lawful : Prop where
  settle_targets : ∀ request entry other, targets entry request = true →
    targets (settle request entry) other = targets entry other
  makes_targets : ∀ request entry, makes request entry → targets entry request = true

variable {targets settle makes}

theorem Exclusive.mono {requests requests' : List R} (h : Exclusive targets requests)
    (hsub : ∀ request ∈ requests', request ∈ requests) : Exclusive targets requests' :=
  fun request member request' member' => h request (hsub _ member) request' (hsub _ member')

theorem Exclusive.find?_eq {requests : List R} (h : Exclusive targets requests) {request : R}
    (member : request ∈ requests) {entry : E} (htargets : targets entry request = true) :
    requests.find? (targets entry) = some request := by
  cases hfind : requests.find? (targets entry) with
  | none => exact absurd htargets (List.find?_eq_none.mp hfind request member)
  | some found =>
      rw [h found (List.mem_of_find?_eq_some hfind) request member entry
        (List.find?_some hfind) htargets]

theorem settleBy_of_targets {requests : List R} (h : Exclusive targets requests) {request : R}
    (member : request ∈ requests) {entry : E} (htargets : targets entry request = true) :
    settleBy targets settle requests entry = settle request entry := by
  unfold settleBy
  rw [h.find?_eq member htargets]

theorem settleBy_of_none {requests : List R} {entry : E}
    (hnone : ∀ request ∈ requests, targets entry request = false) :
    settleBy targets settle requests entry = entry := by
  unfold settleBy
  have hfind : requests.find? (targets entry) = none :=
    List.find?_eq_none.mpr fun request member => by simp [hnone request member]
  rw [hfind]

/-- An entry is that of one request, or of none. -/
theorem targets_cases (requests : List R) (entry : E) :
    (∃ request ∈ requests, targets entry request = true) ∨
      ∀ request ∈ requests, targets entry request = false := by
  by_cases hany : ∃ request ∈ requests, targets entry request = true
  · exact .inl hany
  · refine .inr fun request member => ?_
    rw [← Bool.not_eq_true]
    exact fun htargets => hany ⟨request, member, htargets⟩

/-- The order of the requests does not matter to an entry. -/
theorem settleBy_perm {requests requests' : List R} (h : Exclusive targets requests)
    (hperm : requests.Perm requests') (entry : E) :
    settleBy targets settle requests entry = settleBy targets settle requests' entry := by
  have h' := h.mono fun request member => hperm.mem_iff.mpr member
  rcases targets_cases requests entry with ⟨request, member, htargets⟩ | hnone
  · rw [settleBy_of_targets h member htargets,
      settleBy_of_targets h' (hperm.mem_iff.mp member) htargets]
  · rw [settleBy_of_none hnone,
      settleBy_of_none fun request member => hnone request (hperm.mem_iff.mpr member)]

theorem Reconciled.perm {requests requests' : List R} {entries current : List E}
    (h : Reconciled targets settle makes requests entries current)
    (hexclusive : Exclusive targets requests) (hperm : requests.Perm requests') :
    Reconciled targets settle makes requests' entries current := by
  obtain ⟨order, created, horder, hmakes, hcurrent⟩ := h
  refine ⟨order, created, horder.trans (hperm.filter _), hmakes, ?_⟩
  rw [hcurrent]
  congr 1
  exact List.map_congr_left fun entry _ => settleBy_perm hexclusive hperm entry

theorem reconciled_nil (entries : List E) :
    Reconciled targets settle makes [] entries entries := by
  refine ⟨[], [], .refl _, .nil, ?_⟩
  rw [List.append_nil]
  exact (List.map_id entries).symm

theorem mem_absent_iff {entries : List E} {requests : List R} {request : R} :
    request ∈ absent targets entries requests ↔
      request ∈ requests ∧ ∀ entry ∈ entries, targets entry request = false := by
  simp [absent]

/-- What has been made is made for one of the absent requests. -/
theorem exists_made {order : List R} {created : List E} (h : List.Forall₂ makes order created)
    {entry : E} (member : entry ∈ created) : ∃ request ∈ order, makes request entry := by
  induction h with
  | nil => cases member
  | cons hmakes _ ih =>
      rcases List.mem_cons.mp member with rfl | member
      · exact ⟨_, List.mem_cons_self, hmakes⟩
      · obtain ⟨request, hrequest, hmade⟩ := ih member
        exact ⟨request, List.mem_cons_of_mem _ hrequest, hmade⟩

/-- What is requested is made. -/
theorem made_of_mem {order : List R} {created : List E} (h : List.Forall₂ makes order created)
    {request : R} (member : request ∈ order) : ∃ entry ∈ created, makes request entry := by
  induction h with
  | nil => cases member
  | cons hmakes _ ih =>
      rcases List.mem_cons.mp member with rfl | member
      · exact ⟨_, List.mem_cons_self, hmakes⟩
      · obtain ⟨entry, hentry, hmade⟩ := ih member
        exact ⟨entry, List.mem_cons_of_mem _ hentry, hmade⟩

section

variable (hlawful : Lawful targets settle makes)

include hlawful

theorem targets_settleBy {requests : List R} (entry : E) (other : R) :
    targets (settleBy targets settle requests entry) other = targets entry other := by
  unfold settleBy
  cases hfind : requests.find? (targets entry) with
  | none => rfl
  | some request => exact hlawful.settle_targets request entry other (List.find?_some hfind)

/-- One more request, on an entry that the earlier ones have settled. -/
theorem touch_settleBy {done : List R} {request : R} (h : Exclusive targets (done ++ [request]))
    (hnew : request ∉ done) (entry : E) :
    touch targets settle request (settleBy targets settle done entry) =
      settleBy targets settle (done ++ [request]) entry := by
  have hlast : request ∈ done ++ [request] := List.mem_append_right _ (List.mem_singleton_self _)
  unfold touch
  rw [targets_settleBy hlawful]
  by_cases htargets : targets entry request = true
  · have hearlier : ∀ earlier ∈ done, targets entry earlier = false := by
      intro earlier member
      rw [← Bool.not_eq_true]
      intro hboth
      have hsame := h earlier (List.mem_append_left _ member) request hlast entry hboth htargets
      exact hnew (hsame ▸ member)
    rw [if_pos htargets, settleBy_of_none hearlier, settleBy_of_targets h hlast htargets]
  · rw [if_neg htargets]
    have hlone : [request].find? (targets entry) = none := by
      simp [htargets]
    unfold settleBy
    rw [List.find?_append, hlone, Option.or_none]

/-- Entries made for other requests. -/
theorem targets_made {order : List R} {created : List E} {request : R}
    (h : List.Forall₂ makes order created) (hexclusive : Exclusive targets (request :: order))
    (hnew : request ∉ order) {entry : E} (member : entry ∈ created) :
    targets entry request = false := by
  obtain ⟨other, hother, hmakes⟩ := exists_made h member
  rw [← Bool.not_eq_true]
  intro htargets
  have hsame := hexclusive request List.mem_cons_self other (List.mem_cons_of_mem _ hother) entry
    htargets (hlawful.makes_targets other entry hmakes)
  exact hnew (hsame ▸ hother)

variable {done : List R} {request : R} {entries current : List E}
  (h : Reconciled targets settle makes done entries current)
  (hexclusive : Exclusive targets (done ++ [request])) (hnew : request ∉ done)

include h hexclusive hnew

/-- A request that is new finds the entries as they were. -/
theorem Reconciled.unseen : current.filter (targets · request) =
    entries.filter (targets · request) := by
  obtain ⟨order, created, horder, hmakes, rfl⟩ := h
  have hsub : ∀ other ∈ order, other ∈ done := fun other member =>
    (mem_absent_iff.mp (horder.mem_iff.mp member)).1
  have hmade : created.filter (targets · request) = [] := by
    rw [List.filter_eq_nil_iff]
    intro entry member
    rw [targets_made hlawful hmakes (hexclusive.mono ?_) (fun member => hnew (hsub _ member))
      member]
    · exact Bool.false_ne_true
    · intro other member
      rcases List.mem_cons.mp member with rfl | member
      · exact List.mem_append_right _ (List.mem_singleton_self _)
      · exact List.mem_append_left _ (hsub _ member)
  rw [List.filter_append, hmade, List.append_nil, List.filter_map]
  have hsame : entries.filter ((targets · request) ∘ settleBy targets settle done) =
      entries.filter (targets · request) :=
    List.filter_congr fun entry _ => targets_settleBy hlawful entry request
  rw [hsame]
  calc (entries.filter (targets · request)).map (settleBy targets settle done)
      = (entries.filter (targets · request)).map id := by
        apply List.map_congr_left
        intro entry member
        have htargets := (List.mem_filter.mp member).2
        apply settleBy_of_none
        intro earlier hearlier
        rw [← Bool.not_eq_true]
        intro hboth
        have heq := hexclusive earlier (List.mem_append_left _ hearlier) request
          (List.mem_append_right _ (List.mem_singleton_self _)) entry hboth htargets
        exact hnew (heq ▸ hearlier)
    _ = entries.filter (targets · request) := List.map_id _

/-- The step for a request whose entries are there. -/
theorem Reconciled.update (hthere : ∃ entry ∈ entries, targets entry request = true) :
    Reconciled targets settle makes (done ++ [request]) entries
      (current.map (touch targets settle request)) := by
  obtain ⟨order, created, horder, hmakes, rfl⟩ := h
  obtain ⟨there, hentry, htargets⟩ := hthere
  have hsub : ∀ other ∈ order, other ∈ done := fun other member =>
    (mem_absent_iff.mp (horder.mem_iff.mp member)).1
  have habsent : absent targets entries (done ++ [request]) = absent targets entries done := by
    have hany : entries.any (targets · request) = true :=
      List.any_eq_true.mpr ⟨there, hentry, htargets⟩
    simp [absent, List.filter_append, hany]
  refine ⟨order, created, ?_, hmakes, ?_⟩
  · rw [habsent]
    exact horder
  · have hmade : created.map (touch targets settle request) = created := by
      calc created.map (touch targets settle request)
          = created.map id := by
            apply List.map_congr_left
            intro entry member
            have hother : targets entry request = false := by
              apply targets_made hlawful hmakes (hexclusive.mono ?_)
                (fun member => hnew (hsub _ member)) member
              intro other member
              rcases List.mem_cons.mp member with rfl | member
              · exact List.mem_append_right _ (List.mem_singleton_self _)
              · exact List.mem_append_left _ (hsub _ member)
            simp [touch, hother]
        _ = created := List.map_id _
    rw [List.map_append, List.map_map, hmade]
    congr 1
    exact List.map_congr_left fun entry _ => touch_settleBy hlawful hexclusive hnew entry

/-- The step for a request whose entry is missing. -/
theorem Reconciled.create (hmissing : ∀ entry ∈ entries, targets entry request = false)
    {entry : E} (hmade : makes request entry) :
    Reconciled targets settle makes (done ++ [request]) entries (current ++ [entry]) := by
  obtain ⟨order, created, horder, hmakes, rfl⟩ := h
  refine ⟨order ++ [request], created ++ [entry], ?_, ?_, ?_⟩
  · have habsent : absent targets entries (done ++ [request]) =
        absent targets entries done ++ [request] := by
      have hany : entries.any (targets · request) = false :=
        List.any_eq_false.mpr fun entry member => by simp [hmissing entry member]
      simp [absent, List.filter_append, hany]
    rw [habsent]
    exact horder.append_right _
  · exact List.rel_append hmakes (.cons hmade .nil)
  · rw [List.append_assoc]
    congr 1
    apply List.map_congr_left
    intro other member
    rw [← touch_settleBy hlawful hexclusive hnew other]
    simp [touch, targets_settleBy hlawful, hmissing other member]

end

section

variable (hlawful : Lawful targets settle makes) {requests : List R} {request : R}
  {entries current : List E}

include hlawful

/-- Of what was made, one entry is that of an absent request. -/
theorem filter_made {order : List R} {created : List E}
    (h : List.Forall₂ makes order created) (hexclusive : Exclusive targets order)
    (hnodup : order.Nodup) (member : request ∈ order) :
    ∃ entry, created.filter (targets · request) = [entry] ∧ makes request entry := by
  induction h with
  | nil => cases member
  | @cons first entry order created hmakes hrest ih =>
      have hexclusive' : Exclusive targets order :=
        hexclusive.mono fun other member => List.mem_cons_of_mem _ member
      obtain ⟨hfirst, hnodup'⟩ := List.nodup_cons.mp hnodup
      by_cases hsame : request = first
      · subst hsame
        refine ⟨entry, ?_, hmakes⟩
        rw [List.filter_cons, if_pos (hlawful.makes_targets request entry hmakes)]
        congr 1
        rw [List.filter_eq_nil_iff]
        intro other hother
        rw [targets_made hlawful hrest hexclusive hfirst hother]
        exact Bool.false_ne_true
      · have hlater : request ∈ order := (List.mem_cons.mp member).resolve_left hsame
        obtain ⟨found, hfilter, hmade⟩ := ih hexclusive' hnodup' hlater
        refine ⟨found, ?_, hmade⟩
        rw [List.filter_cons_of_neg, hfilter]
        intro htargets
        exact hsame (hexclusive request member first List.mem_cons_self entry htargets
          (hlawful.makes_targets first entry hmakes))

variable (h : Reconciled targets settle makes requests entries current)
  (hexclusive : Exclusive targets requests) (member : request ∈ requests)

include h hexclusive member

/-- What a request finds in the end, if its entries were there. -/
theorem Reconciled.settled (hthere : ∃ entry ∈ entries, targets entry request = true) :
    current.filter (targets · request) =
      (entries.filter (targets · request)).map (settle request) := by
  obtain ⟨order, created, horder, hmakes, rfl⟩ := h
  obtain ⟨there, hentry, htargets⟩ := hthere
  have hmade : created.filter (targets · request) = [] := by
    rw [List.filter_eq_nil_iff]
    intro entry hcreated htargets'
    obtain ⟨other, hother, hmake⟩ := exists_made hmakes hcreated
    obtain ⟨hother, hmissing⟩ := mem_absent_iff.mp (horder.mem_iff.mp hother)
    have hsame := hexclusive request member other hother entry htargets'
      (hlawful.makes_targets other entry hmake)
    subst hsame
    exact Bool.false_ne_true ((hmissing there hentry).symm.trans htargets)
  rw [List.filter_append, hmade, List.append_nil, List.filter_map]
  have hsame : entries.filter ((targets · request) ∘ settleBy targets settle requests) =
      entries.filter (targets · request) :=
    List.filter_congr fun entry _ => targets_settleBy hlawful entry request
  rw [hsame]
  exact List.map_congr_left fun entry hentry =>
    settleBy_of_targets hexclusive member (List.mem_filter.mp hentry).2

/-- What it finds, if its entry was missing. -/
theorem Reconciled.made (hnodup : requests.Nodup)
    (hmissing : ∀ entry ∈ entries, targets entry request = false) :
    ∃ entry, current.filter (targets · request) = [entry] ∧ makes request entry := by
  obtain ⟨order, created, horder, hmakes, rfl⟩ := h
  have hkept : (entries.map (settleBy targets settle requests)).filter
      (targets · request) = [] := by
    rw [List.filter_eq_nil_iff]
    intro entry hentry
    obtain ⟨origin, horigin, rfl⟩ := List.mem_map.mp hentry
    rw [targets_settleBy hlawful, hmissing origin horigin]
    exact Bool.false_ne_true
  rw [List.filter_append, hkept, List.nil_append]
  apply filter_made hlawful hmakes
  · exact hexclusive.mono fun other hother =>
      (mem_absent_iff.mp (horder.mem_iff.mp hother)).1
  · exact horder.nodup_iff.mpr (hnodup.filter _)
  · exact horder.mem_iff.mpr (mem_absent_iff.mpr ⟨member, hmissing⟩)

end

/-- Where every request finds its entries settled, nothing is done. -/
theorem Reconciled.stable {requests : List R} {entries current : List E}
    (h : Reconciled targets settle makes requests entries current)
    (hsettled : ∀ request ∈ requests, (∃ entry ∈ entries, targets entry request = true) ∧
      ∀ entry ∈ entries, targets entry request = true → settle request entry = entry) :
    current = entries := by
  obtain ⟨order, created, horder, hmakes, rfl⟩ := h
  have hnone : absent targets entries requests = [] := by
    rw [List.eq_nil_iff_forall_not_mem]
    intro request member
    obtain ⟨hrequest, hmissing⟩ := mem_absent_iff.mp member
    obtain ⟨⟨entry, hentry, htargets⟩, -⟩ := hsettled request hrequest
    exact Bool.false_ne_true ((hmissing entry hentry).symm.trans htargets)
  rw [hnone] at horder
  obtain rfl := horder.eq_nil
  cases hmakes
  rw [List.append_nil]
  calc entries.map (settleBy targets settle requests)
      = entries.map id := by
        apply List.map_congr_left
        intro entry hentry
        unfold settleBy
        cases hfind : requests.find? (targets entry) with
        | none => rfl
        | some request =>
            exact (hsettled request (List.mem_of_find?_eq_some hfind)).2 entry hentry
              (List.find?_some hfind)
    _ = entries := List.map_id _

/-- Two outcomes for the same entries differ in what was made only, and in its order. -/
theorem Reconciled.agree {requests : List R} {entries current current' : List E}
    (h : Reconciled targets settle makes requests entries current)
    (h' : Reconciled targets settle makes requests entries current') :
    SameUpToMade makes current current' := by
  obtain ⟨order, created, horder, hmakes, rfl⟩ := h
  obtain ⟨order', created', horder', hmakes', rfl⟩ := h'
  exact ⟨_, order, created, order', created', rfl, rfl, horder.trans horder'.symm, hmakes,
    hmakes'⟩

/-- What is made and settled later. -/
def MadeThen (makes : R → E → Prop) (settle : R → E → E) (request : R) (entry : E) : Prop :=
  ∃ made, makes request made ∧ entry = settle request made

section

variable {settle' : R → E → E} {makes' : R → E → Prop}

theorem Lawful.trans (h : Lawful targets settle makes) (h' : Lawful targets settle' makes') :
    Lawful targets (fun request entry => settle' request (settle request entry))
      (MadeThen makes settle') where
  settle_targets := by
    intro request entry other htargets
    have hstill : targets (settle request entry) request = true := by
      rw [h.settle_targets request entry request htargets, htargets]
    rw [h'.settle_targets request _ other hstill, h.settle_targets request entry other htargets]
  makes_targets := by
    rintro request entry ⟨made, hmakes, rfl⟩
    have htargets := h.makes_targets request made hmakes
    rw [h'.settle_targets request made request htargets, htargets]

theorem settleBy_settleBy (h : Lawful targets settle makes) {requests : List R}
    (hexclusive : Exclusive targets requests) (entry : E) :
    settleBy targets settle' requests (settleBy targets settle requests entry) =
      settleBy targets (fun request entry => settle' request (settle request entry)) requests
        entry := by
  rcases targets_cases requests entry with ⟨request, member, htargets⟩ | hnone
  · have hstill : targets (settle request entry) request = true := by
      rw [h.settle_targets request entry request htargets, htargets]
    rw [settleBy_of_targets hexclusive member htargets,
      settleBy_of_targets hexclusive member hstill,
      settleBy_of_targets hexclusive member htargets]
  · rw [settleBy_of_none hnone, settleBy_of_none hnone, settleBy_of_none hnone]

/-- Once reconciled, every request finds its entry. -/
theorem Reconciled.absent_eq_nil (hlawful : Lawful targets settle makes) {requests : List R}
    {entries current : List E} (h : Reconciled targets settle makes requests entries current) :
    absent targets current requests = [] := by
  obtain ⟨order, created, horder, hmakes, rfl⟩ := h
  rw [List.eq_nil_iff_forall_not_mem]
  intro request member
  obtain ⟨hrequest, hmissing⟩ := mem_absent_iff.mp member
  have hentries : ∀ entry ∈ entries, targets entry request = false := by
    intro entry hentry
    exact (targets_settleBy hlawful entry request).symm.trans
      (hmissing _ (List.mem_append_left _ (List.mem_map_of_mem hentry)))
  obtain ⟨entry, hentry, hmake⟩ := made_of_mem hmakes
    (horder.mem_iff.mpr (mem_absent_iff.mpr ⟨hrequest, hentries⟩))
  have htargets := hlawful.makes_targets request entry hmake
  rw [hmissing entry (List.mem_append_right _ hentry)] at htargets
  cases htargets

/-- Entries that are reconciled twice are reconciled with both. -/
theorem Reconciled.trans (hlawful : Lawful targets settle makes) {requests : List R}
    (hexclusive : Exclusive targets requests) {entries middle current : List E}
    (h : Reconciled targets settle makes requests entries middle)
    (h' : Reconciled targets settle' makes' requests middle current) :
    Reconciled targets (fun request entry => settle' request (settle request entry))
      (MadeThen makes settle') requests entries current := by
  obtain ⟨order', created', horder', hmakes', rfl⟩ := h'
  rw [h.absent_eq_nil hlawful] at horder'
  obtain rfl := horder'.eq_nil
  cases hmakes'
  obtain ⟨order, created, horder, hmakes, rfl⟩ := h
  have hsub : ∀ request ∈ order, request ∈ requests := fun request member =>
    (mem_absent_iff.mp (horder.mem_iff.mp member)).1
  refine ⟨order, created.map (settleBy targets settle' requests), horder, ?_, ?_⟩
  · clear horder
    induction hmakes with
    | nil => exact .nil
    | @cons request entry order created hmake _ ih =>
        refine .cons ⟨entry, hmake, ?_⟩ (ih fun other member => hsub other
          (List.mem_cons_of_mem _ member))
        exact settleBy_of_targets hexclusive (hsub request List.mem_cons_self)
          (hlawful.makes_targets request entry hmake)
  · rw [List.append_nil, List.map_append, List.map_map]
    congr 1
    exact List.map_congr_left fun entry _ => settleBy_settleBy hlawful hexclusive entry

end

end Cirrusync.Sequence
