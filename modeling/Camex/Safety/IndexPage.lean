import Camex.Safety.MapFile

/-!
# The start page and the order of its records

* `KeptOf`: what the page keeps of the records of a host: the first, configured if one of them is, under the first
  name among them;
* `OrderIndependent`: the page and its count are the same for every order of the records;
* `orderIndependent_iff`: they are exactly when the records of a host that nothing in the comparison tells apart, and
  that no other comes before, show the same row.
-/

namespace Camex

open Lib Std

def indexRecords (text : Bytes) (domain : CStr) : List MapEntry :=
  (textLines text).filterMap (parseRecord domain true)

/-- The page and its count do not depend on the order of the lines, however `qsort` orders what compares equal. -/
def OrderIndependent (s : Qsort cmpShown) (page : PageTexts) (httpPort : ℤ) (text : Bytes) (domain : CStr) : Prop :=
  ∀ (q : Qsort cmpEntry) (text' : Bytes), (textLines text').Perm (textLines text) →
    nginxIndexFormat q s page text' domain httpPort = nginxIndexFormat q s page text domain httpPort

/-- No record of the host comes before this one. -/
def Foremost (es : List MapEntry) (e : MapEntry) : Prop :=
  e ∈ es ∧ ∀ x ∈ es, x.host = e.host → (cmpEntry e x).isLE = true

/-- The foremost records of a host show the same behind its ID. -/
def TiesAgree (text : Bytes) (domain : CStr) : Prop :=
  ∀ e e', e.host = e'.host → Foremost (indexRecords text domain) e → Foremost (indexRecords text domain) e' →
    rowRest e = rowRest e'

/-! ## What is kept of a host -/

def firstName (host : CStr) (es : List MapEntry) : CStr :=
  ((es.filter fun e => e.host == host).map MapEntry.name).find? (fun n => n != []) |>.getD []

/-- An entry kept of records. -/
structure KeptOf (es : List MapEntry) (k : MapEntry) : Prop where
  first : ∃ e, es.find? (fun e => e.host == k.host) = some e ∧ k = { e with conf := k.conf, name := k.name }
  conf : k.conf = es.any fun e => e.host == k.host && e.conf
  name : k.name = firstName k.host es

theorem keepFrom_hosts (k : MapEntry) (es : List MapEntry) :
    (keepFrom k es).map MapEntry.host = k.host :: (mapKept (some k.host) es).map MapEntry.host := by
  induction es generalizing k with
  | nil => rfl
  | cons e es ih =>
    unfold keepFrom mapKept
    by_cases h : e.host = k.host
    · rw [if_pos h, if_pos (by rw [h]), ih]
      rfl
    · rw [if_neg h, if_neg (by simpa using Ne.symm h), List.map_cons, List.map_cons, ih]

theorem keepOne_hosts (es : List MapEntry) :
    (keepOne es).map MapEntry.host = (mapKept none es).map MapEntry.host := by
  cases es with
  | nil => rfl
  | cons e es =>
    unfold keepOne mapKept
    rw [if_neg (by simp), keepFrom_hosts, List.map_cons]

theorem mapKept_hosts_congr {es es' : List MapEntry} (h : es.map MapEntry.host = es'.map MapEntry.host)
    (prev : Option CStr) : (mapKept prev es).map MapEntry.host = (mapKept prev es').map MapEntry.host := by
  induction es generalizing es' prev with
  | nil =>
    rw [List.map_nil] at h
    rw [List.map_eq_nil_iff.mp h.symm]
  | cons e es ih =>
    cases es' with
    | nil => cases h
    | cons e' es' =>
      obtain ⟨hhost, hes⟩ := List.cons.inj h
      unfold mapKept
      rw [← hhost]
      split
      · exact ih hes prev
      · rw [List.map_cons, List.map_cons, hhost, ih hes]

theorem keepOne_distinct {es : List MapEntry} (hes : es.Pairwise fun a b => (cmpEntry a b).isLE = true) :
    (keepOne es).Pairwise fun a b => a.host ≠ b.host := by
  have hinc := mapKept_increasing (hes.imp cmpEntry_host) none
  have hhosts : ((mapKept none es).map MapEntry.host).Pairwise (· ≠ ·) :=
    List.pairwise_map.mpr (hinc.imp fun hlt heq => by
      rw [heq, ReflOrd.compare_self] at hlt
      cases hlt)
  rw [← keepOne_hosts] at hhosts
  exact List.pairwise_map.mp hhosts

theorem firstName_cons_of_ne {host : CStr} {e : MapEntry} (h : e.host ≠ host) (es : List MapEntry) :
    firstName host (e :: es) = firstName host es := by
  unfold firstName
  rw [List.filter_cons_of_neg (by simpa using h)]

theorem firstName_cons_of_eq {host : CStr} {e : MapEntry} (h : e.host = host) (es : List MapEntry) :
    firstName host (e :: es) = if e.name = [] then firstName host es else e.name := by
  unfold firstName
  rw [List.filter_cons_of_pos (by simpa using h), List.map_cons]
  by_cases hn : e.name = []
  · rw [if_pos hn, List.find?_cons_of_neg (by simpa using hn)]
  · rw [if_neg hn, List.find?_cons_of_pos (by simpa using hn)]
    rfl

theorem KeptOf.cons {es : List MapEntry} {k e : MapEntry} (h : KeptOf es k) (hne : e.host ≠ k.host) :
    KeptOf (e :: es) k where
  first := by
    obtain ⟨x, hx, hk⟩ := h.first
    exact ⟨x, by rw [List.find?_cons_of_neg (by simpa using hne), hx], hk⟩
  conf := by
    rw [List.any_cons, show (e.host == k.host) = false by simpa using hne, Bool.false_and, Bool.false_or]
    exact h.conf
  name := by rw [firstName_cons_of_ne hne, h.name]

/-- A later record of the host was taken in. -/
theorem KeptOf.absorbed {es : List MapEntry} {k e x : MapEntry} (he : e.host = k.host)
    (h : KeptOf (absorb k e :: es) x) : KeptOf (k :: e :: es) x := by
  by_cases hx : k.host = x.host
  · obtain ⟨y, hy, hxy⟩ := h.first
    have hsame : (absorb k e).host = x.host := hx
    have hex : e.host = x.host := he.trans hx
    rw [List.find?_cons_of_pos (by simpa using hsame)] at hy
    obtain rfl := Option.some.inj hy
    refine ⟨⟨k, List.find?_cons_of_pos (by simpa using hx), hxy⟩, ?_, ?_⟩
    · have hconf := h.conf
      rw [List.any_cons, show ((absorb k e).host == x.host) = true by simpa using hsame, Bool.true_and] at hconf
      rw [hconf, List.any_cons, List.any_cons, show (k.host == x.host) = true by simpa using hx,
        show (e.host == x.host) = true by simpa using hex, Bool.true_and, Bool.true_and, ← Bool.or_assoc]
      rfl
    · rw [h.name, firstName_cons_of_eq hsame, firstName_cons_of_eq hx, firstName_cons_of_eq hex]
      by_cases hk : k.name = []
      · rw [show (absorb k e).name = e.name by simp [absorb, hk], if_pos hk]
      · rw [show (absorb k e).name = k.name by simp [absorb, hk], if_neg hk, if_neg hk]
  · have hsame : (absorb k e).host ≠ x.host := hx
    obtain ⟨y, hy, hxy⟩ := h.first
    rw [List.find?_cons_of_neg (by simpa using hsame)] at hy
    have hconf := h.conf
    rw [List.any_cons, show ((absorb k e).host == x.host) = false by simpa using hsame, Bool.false_and,
      Bool.false_or] at hconf
    have hname := h.name
    rw [firstName_cons_of_ne hsame] at hname
    have hes : KeptOf es x := ⟨⟨y, hy, hxy⟩, hconf, hname⟩
    exact (hes.cons (by rwa [he])).cons hx

theorem keepFrom_keptOf {k : MapEntry} {es : List MapEntry}
    (hes : (k :: es).Pairwise fun a b => (compare a.host b.host).isLE = true) :
    ∀ x ∈ keepFrom k es, KeptOf (k :: es) x := by
  induction es generalizing k with
  | nil =>
    intro x hx
    rw [keepFrom, List.mem_singleton] at hx
    subst hx
    refine ⟨⟨x, List.find?_cons_of_pos (by simp), rfl⟩, by simp, ?_⟩
    rw [firstName_cons_of_eq rfl]
    split
    · rename_i hn
      rw [hn]
      rfl
    · rfl
  | cons e es ih =>
    obtain ⟨hhead, htail⟩ := List.pairwise_cons.mp hes
    obtain ⟨hke, hkes⟩ := List.forall_mem_cons.mp hhead
    unfold keepFrom
    split
    · rename_i hsame
      intro x hx
      have habsorbed : (absorb k e :: es).Pairwise fun a b => (compare a.host b.host).isLE = true :=
        List.pairwise_cons.mpr ⟨hkes, (List.pairwise_cons.mp htail).2⟩
      exact (ih habsorbed x hx).absorbed hsame
    · rename_i hne
      intro x hx
      rcases List.mem_cons.mp hx with rfl | hx
      · -- no later record is of this host
        have hlater : ∀ y ∈ e :: es, y.host ≠ x.host := by
          intro y hy heq
          have hle : (compare e.host y.host).isLE = true := by
            rcases List.mem_cons.mp hy with rfl | hy
            · rw [ReflOrd.compare_self]
              rfl
            · exact (List.pairwise_cons.mp htail).1 y hy
          rw [heq] at hle
          have hsame : compare e.host x.host = .eq := Qsort.eq_of_isLE hle hke
          exact hne (LawfulEqOrd.eq_of_compare hsame)
        have hfilter : (e :: es).filter (fun y => y.host == x.host) = [] := by
          rw [List.filter_eq_nil_iff]
          exact fun y hy => by simpa using hlater y hy
        refine ⟨⟨x, List.find?_cons_of_pos (by simp), rfl⟩, ?_, ?_⟩
        · have hany : (e :: es).any (fun y => y.host == x.host && y.conf) = false := by
            rw [List.any_eq_false]
            intro y hy
            simp [hlater y hy]
          rw [List.any_cons, hany]
          simp
        · rw [firstName_cons_of_eq rfl]
          unfold firstName
          rw [hfilter]
          split
          · rename_i hn
            rw [hn]
            rfl
          · rfl
      · have hhost : k.host ≠ x.host := by
          intro heq
          have hmem : x.host ∈ e.host :: (mapKept (some e.host) es).map MapEntry.host :=
            keepFrom_hosts e es ▸ List.mem_map_of_mem hx
          rcases List.mem_cons.mp hmem with h | h
          · exact hne (h.symm.trans heq.symm)
          · obtain ⟨y, hy, hyx⟩ := List.mem_map.mp h
            have hle := (List.pairwise_cons.mp htail).1 y ((mapKept_sublist _ es).subset hy)
            rw [hyx, ← heq] at hle
            have hsame : compare e.host k.host = .eq := Qsort.eq_of_isLE hle hke
            exact hne (LawfulEqOrd.eq_of_compare hsame)
        exact (ih htail x hx).cons hhost

theorem keepOne_keptOf {es : List MapEntry} (hes : es.Pairwise fun a b => (cmpEntry a b).isLE = true) :
    ∀ x ∈ keepOne es, KeptOf es x := by
  cases es with
  | nil => simp [keepOne]
  | cons e es => exact keepFrom_keptOf (hes.imp cmpEntry_host)

theorem KeptOf.rowRest_eq {es : List MapEntry} {k e : MapEntry} (h : KeptOf es k)
    (he : es.find? (fun x => x.host == k.host) = some e) : rowRest k = rowRest e := by
  obtain ⟨x, hx, hk⟩ := h.first
  rw [he] at hx
  obtain rfl := Option.some.inj hx
  rw [hk]
  rfl

/-! ## Two arrangements of the records -/

def entryKey (e : MapEntry) : CStr × Bool × Ip × CStr := (e.host, e.live, e.addr, e.name)

theorem cmpEntry_key (a b a' b' : MapEntry) (ha : entryKey a = entryKey a') (hb : entryKey b = entryKey b') :
    cmpEntry a b = cmpEntry a' b' := by
  simp only [entryKey, Prod.mk.injEq] at ha hb
  obtain ⟨ha₁, ha₂, ha₃, ha₄⟩ := ha
  obtain ⟨hb₁, hb₂, hb₃, hb₄⟩ := hb
  simp only [cmpEntry, compareLex, compareOn, ha₁, ha₂, ha₃, ha₄, hb₁, hb₂, hb₃, hb₄]

theorem cmpEntry_eq {a b : MapEntry} (h : cmpEntry a b = .eq) : entryKey a = entryKey b := by
  simp only [cmpEntry, compareLex, compareOn, Ordering.then_eq_eq] at h
  obtain ⟨h₁, h₂, h₃, h₄⟩ := h
  have h₂ : (!a.live) = !b.live := LawfulEqOrd.eq_of_compare h₂
  have hlive : a.live = b.live := by simpa using h₂
  unfold entryKey
  rw [LawfulEqOrd.eq_of_compare h₁, hlive, BitVec.eq_of_toNat_eq (LawfulEqOrd.eq_of_compare h₃),
    LawfulEqOrd.eq_of_compare h₄]

/-- Entries that a page lists alike, but for what stands behind the ID. -/
structure SameShown (k k' : MapEntry) : Prop where
  host : k.host = k'.host
  live : k.live = k'.live
  label : k.label = k'.label
  name : k.name = k'.name
  conf : k.conf = k'.conf

theorem SameShown.cmpShown_eq {a a' b b' : MapEntry} (ha : SameShown a a') (hb : SameShown b b') :
    cmpShown a b = cmpShown a' b' := by
  simp only [cmpShown, compareLex, compareOn, shownName, ha.host, ha.label, ha.name, hb.host, hb.label, hb.name]

/-- Records of one domain: the host tells the label. -/
def HostsOf (domain : CStr) (es : List MapEntry) : Prop := ∀ e ∈ es, e.host = hostOf domain e.label

theorem parseRecord_host {domain line : CStr} {index : Bool} {e : MapEntry}
    (h : parseRecord domain index line = some e) : e.host = hostOf domain e.label := by
  unfold parseRecord at h
  split at h
  · cases h
  · obtain ⟨r, -, hr⟩ := Option.bind_eq_some_iff.mp h
    unfold recordEntry at hr
    dsimp only at hr
    split at hr
    · cases hr
    · split at hr
      · cases hr
      · rw [← Option.some.inj hr]

section Arrangements

variable {domain : CStr} {es es' : List MapEntry}

/-- Two sorted arrangements of records. -/
structure Arranged (domain : CStr) (es es' : List MapEntry) : Prop where
  perm : es.Perm es'
  sorted : es.Pairwise fun a b => (cmpEntry a b).isLE = true
  sorted' : es'.Pairwise fun a b => (cmpEntry a b).isLE = true
  hosts : HostsOf domain es

theorem Arranged.keys (h : Arranged domain es es') : es.map entryKey = es'.map entryKey :=
  Qsort.map_eq_of_sorted h.perm h.sorted h.sorted' cmpEntry_key fun _ _ => cmpEntry_eq

theorem Arranged.firstName_eq (h : Arranged domain es es') (host : CStr) :
    firstName host es = firstName host es' := by
  have hnames : ∀ l : List MapEntry, (l.filter fun e => e.host == host).map MapEntry.name =
      ((l.map entryKey).filter fun k => k.1 == host).map fun k => k.2.2.2 := by
    intro l
    rw [List.filter_map, List.map_map]
    rfl
  unfold firstName
  rw [hnames es, hnames es', h.keys]

/-- The first records of a host compare equal. -/
theorem Arranged.find?_key (h : Arranged domain es es') {host : CStr} {e e' : MapEntry}
    (he : es.find? (fun x => x.host == host) = some e) (he' : es'.find? (fun x => x.host == host) = some e') :
    entryKey e = entryKey e' := by
  have hfind : ∀ l : List MapEntry, (l.map entryKey).find? (fun k => k.1 == host) =
      (l.find? fun x => x.host == host).map entryKey := fun l => by
    rw [List.find?_map]
    rfl
  have hsame := hfind es
  rw [h.keys, hfind es', he, he'] at hsame
  exact (Option.some.inj hsame).symm

theorem Arranged.sameShown (h : Arranged domain es es') {k k' : MapEntry} (hk : KeptOf es k) (hk' : KeptOf es' k')
    (hhost : k.host = k'.host) : SameShown k k' := by
  obtain ⟨e, he, hke⟩ := hk.first
  obtain ⟨e', he', hke'⟩ := hk'.first
  rw [← hhost] at he'
  have hkey := h.find?_key he he'
  simp only [entryKey, Prod.mk.injEq] at hkey
  have hlabel : e.label = e'.label := by
    have hmem' : e' ∈ es := h.perm.mem_iff.mpr (List.mem_of_find?_eq_some he')
    have hsame : hostOf domain e.label = hostOf domain e'.label := by
      rw [← h.hosts e (List.mem_of_find?_eq_some he), ← h.hosts e' hmem', hkey.1]
    exact hostOf_inj hsame
  refine ⟨hhost, ?_, ?_, ?_, ?_⟩
  · rw [hke, hke']
    exact hkey.2.1
  · rw [hke, hke']
    exact hlabel
  · rw [hk.name, hk'.name, ← hhost, h.firstName_eq]
  · rw [hk.conf, hk'.conf, ← hhost]
    exact h.perm.any_eq

theorem forall₂_of_mem {R S : MapEntry → MapEntry → Prop} {l l' : List MapEntry} (h : List.Forall₂ R l l')
    (hRS : ∀ a ∈ l, ∀ b ∈ l', R a b → S a b) : List.Forall₂ S l l' := by
  induction h with
  | nil => exact .nil
  | @cons a b l l' hab h ih =>
    exact .cons (hRS a List.mem_cons_self b List.mem_cons_self hab)
      (ih fun a ha b hb => hRS a (List.mem_cons_of_mem _ ha) b (List.mem_cons_of_mem _ hb))

/-- The entries kept, place by place. -/
theorem Arranged.kept (h : Arranged domain es es') {R : MapEntry → MapEntry → Prop}
    (hR : ∀ k k', KeptOf es k → KeptOf es' k' → SameShown k k' → R k k') :
    List.Forall₂ R (keepOne es) (keepOne es') := by
  have hhosts : (keepOne es).map MapEntry.host = (keepOne es').map MapEntry.host := by
    rw [keepOne_hosts, keepOne_hosts]
    refine mapKept_hosts_congr ?_ none
    have hkeys := congrArg (List.map Prod.fst) h.keys
    rwa [List.map_map, List.map_map] at hkeys
  have hplaces : List.Forall₂ (fun k k' => k.host = k'.host) (keepOne es) (keepOne es') := by
    have heq : List.Forall₂ Eq ((keepOne es).map MapEntry.host) ((keepOne es').map MapEntry.host) := by
      rw [List.forall₂_eq_eq_eq, hhosts]
    rwa [List.forall₂_map_left_iff, List.forall₂_map_right_iff] at heq
  refine forall₂_of_mem hplaces fun k hk k' hk' hhost => ?_
  have hkept := keepOne_keptOf h.sorted k hk
  have hkept' := keepOne_keptOf h.sorted' k' hk'
  exact hR k k' hkept hkept' (h.sameShown hkept hkept' hhost)

end Arrangements

/-! ## Pages -/

theorem indexRow_append (port : CStr) {k k' : MapEntry} (h : SameShown k k') :
    ∃ front, indexRow port k = front ++ rowRest k ∧ indexRow port k' = front ++ rowRest k' := by
  refine ⟨_, rfl, ?_⟩
  unfold indexRow rowHead shownName
  rw [h.host, h.live, h.label, h.name]

section Pages

variable {R : MapEntry → MapEntry → Prop} {kept kept' : List MapEntry}

/-- The lists of a page. -/
structure PageLists (s : Qsort cmpShown) (R : MapEntry → MapEntry → Prop) (kept kept' : List MapEntry) : Prop where
  conf : List.Forall₂ R (s.sort (kept.filter fun e => e.conf)) (s.sort (kept'.filter fun e => e.conf))
  autos : List.Forall₂ R (s.sort (kept.filter fun e => !e.conf)) (s.sort (kept'.filter fun e => !e.conf))
  live : kept.countP (fun e => e.live) = kept'.countP fun e => e.live
  off : kept.countP (fun e => !e.live) = kept'.countP fun e => !e.live

theorem pageLists (s : Qsort cmpShown) (hR : ∀ k k', R k k' → SameShown k k') (h : List.Forall₂ R kept kept')
    (hdistinct : kept'.Pairwise fun a b => a.host ≠ b.host) : PageLists s R kept kept' := by
  have hsymm : Std.Symm fun a b : MapEntry => a.host ≠ b.host := ⟨fun _ _ hne => hne.symm⟩
  have hunique : ∀ a ∈ kept', ∀ b ∈ kept', cmpShown a b = .eq → a = b := by
    intro a ha b hb heq
    have hhost : a.host = b.host := by
      simp only [cmpShown, compareLex, compareOn, Ordering.then_eq_eq] at heq
      exact LawfulEqOrd.eq_of_compare heq.2
    by_contra hne
    exact hdistinct.forall ha hb hne hhost
  have hsort : ∀ p p' : MapEntry → Bool, (∀ k k', R k k' → (p k = true ↔ p' k' = true)) →
      List.Forall₂ R (s.sort (kept.filter p)) (s.sort (kept'.filter p')) := by
    intro p p' hp
    refine s.sort_forall₂ s (List.rel_filter (fun k k' hk => hp k k' hk) h)
      (fun a b a' b' ha hb => (hR a a' ha).cmpShown_eq (hR b b' hb)) fun a ha b hb heq => ?_
    exact hunique a (List.mem_of_mem_filter ha) b (List.mem_of_mem_filter hb) heq
  have hcount : ∀ p : MapEntry → Bool, (∀ k k', R k k' → (p k = true ↔ p k' = true)) →
      kept.countP p = kept'.countP p := by
    intro p hp
    rw [List.countP_eq_length_filter, List.countP_eq_length_filter]
    exact (List.rel_filter (fun k k' hk => hp k k' hk) h).length_eq
  exact ⟨hsort _ _ fun k k' hk => by rw [(hR k k' hk).conf], hsort _ _ fun k k' hk => by rw [(hR k k' hk).conf],
    hcount _ fun k k' hk => by rw [(hR k k' hk).live], hcount _ fun k k' hk => by rw [(hR k k' hk).live]⟩

theorem flatMap_rows_eq {l l' : List MapEntry} {port : CStr} (h : List.Forall₂ R l l')
    (hrows : ∀ k ∈ l, ∀ k', R k k' → indexRow port k = indexRow port k') :
    l.flatMap (indexRow port) = l'.flatMap (indexRow port) := by
  induction h with
  | nil => rfl
  | @cons a b l l' hab h ih =>
    obtain ⟨ha, hl⟩ := List.forall_mem_cons.mp hrows
    rw [List.flatMap_cons, List.flatMap_cons, ha b hab, ih hl]

theorem indexList_eq_iff {l l' : List MapEntry} {cls empty : String} {port : CStr} (h : List.Forall₂ R l l') :
    indexList cls l empty port = indexList cls l' empty port ↔
      l.flatMap (indexRow port) = l'.flatMap (indexRow port) := by
  unfold indexList
  cases h with
  | nil => simp
  | cons hab h =>
    rw [if_neg (List.cons_ne_nil _ _), if_neg (List.cons_ne_nil _ _)]
    constructor
    · intro heq
      exact List.append_cancel_left (List.append_cancel_right (List.append_cancel_left heq))
    · intro heq
      rw [heq]

theorem row_eq_of_flatMap {l l' : List MapEntry} {port host : CStr} (h : List.Forall₂ R l l')
    (hrows : ∀ k k', R k k' → k.host ≠ host → indexRow port k = indexRow port k')
    (hdistinct : l.Pairwise fun a b => a.host ≠ b.host)
    (heq : l.flatMap (indexRow port) = l'.flatMap (indexRow port)) {k : MapEntry} (hk : k ∈ l)
    (hhost : k.host = host) : ∃ k', R k k' ∧ indexRow port k = indexRow port k' := by
  induction h with
  | nil => cases hk
  | @cons a b l l' hab h ih =>
    obtain ⟨hne, htail⟩ := List.pairwise_cons.mp hdistinct
    rw [List.flatMap_cons, List.flatMap_cons] at heq
    rcases List.mem_cons.mp hk with rfl | hk
    · have hrest : l.flatMap (indexRow port) = l'.flatMap (indexRow port) :=
        flatMap_rows_eq h fun x hx x' hxx => hrows x x' hxx fun hxh => hne x hx (hhost.trans hxh.symm)
      rw [hrest] at heq
      exact ⟨b, hab, List.append_cancel_right heq⟩
    · have ha : a.host ≠ host := fun hah => hne k hk (hah.trans hhost.symm)
      rw [hrows a b hab ha] at heq
      exact ih htail (List.append_cancel_left heq) hk

/-- Pages of lists whose rows are equal. -/
theorem indexPage_congr {s : Qsort cmpShown} (h : PageLists s R kept kept') (page : PageTexts) (httpPort : ℤ)
    (hrows : ∀ k k', R k k' → indexRow (linkPort httpPort) k = indexRow (linkPort httpPort) k') :
    indexPage s page httpPort kept = indexPage s page httpPort kept' := by
  have hconf := flatMap_rows_eq h.conf fun k _ => hrows k
  have hautos := flatMap_rows_eq h.autos fun k _ => hrows k
  unfold indexPage
  dsimp only
  rw [(indexList_eq_iff h.conf).mpr hconf, (indexList_eq_iff h.autos).mpr hautos, h.live, h.off,
    h.conf.length_eq, h.autos.length_eq]

/-- Equal pages: the row of the only host that could differ is equal. -/
theorem row_eq_of_page {s : Qsort cmpShown} (h : PageLists s R kept kept') {page : PageTexts} {httpPort : ℤ}
    {host : CStr} (hrows : ∀ k k', R k k' → k.host ≠ host →
      indexRow (linkPort httpPort) k = indexRow (linkPort httpPort) k')
    (hdistinct : kept.Pairwise fun a b => a.host ≠ b.host)
    (heq : indexPage s page httpPort kept = indexPage s page httpPort kept') {k : MapEntry} (hk : k ∈ kept)
    (hhost : k.host = host) :
    ∃ k', R k k' ∧ indexRow (linkPort httpPort) k = indexRow (linkPort httpPort) k' := by
  have hsymm : Std.Symm fun a b : MapEntry => a.host ≠ b.host := ⟨fun _ _ hne => hne.symm⟩
  have hsub : ∀ p : MapEntry → Bool, ∀ x ∈ s.sort (kept.filter p), x ∈ kept ∧ p x = true := fun p x hx =>
    List.mem_filter.mp ((s.perm _).mem_iff.mp hx)
  have hpairs : ∀ p : MapEntry → Bool, (s.sort (kept.filter p)).Pairwise fun a b => a.host ≠ b.host :=
    fun p => (s.perm _).symm.pairwise (hdistinct.filter p) fun hne => hne.symm
  -- the list of the other kind does not hold the host
  have hother : ∀ p : MapEntry → Bool, p k = false → ∀ x ∈ s.sort (kept.filter p), x.host ≠ host := by
    intro p hp x hx hxh
    obtain ⟨hmem, hpx⟩ := hsub p x hx
    have hne : x ≠ k := by
      rintro rfl
      rw [hp] at hpx
      cases hpx
    exact hdistinct.forall hmem hk hne (hxh.trans hhost.symm)
  have htext := congrArg Prod.fst heq
  unfold indexPage at htext
  dsimp only at htext
  rw [h.live, h.off, h.conf.length_eq, h.autos.length_eq] at htext
  have htext := List.append_cancel_right htext
  cases hkc : k.conf with
  | true =>
    have hautos := flatMap_rows_eq h.autos fun x hx x' hxx =>
      hrows x x' hxx (hother (fun e => !e.conf) (by simp [hkc]) x hx)
    rw [(indexList_eq_iff h.autos).mpr hautos] at htext
    have hlist := List.append_cancel_left (List.append_cancel_right htext)
    exact row_eq_of_flatMap h.conf hrows (hpairs _) ((indexList_eq_iff h.conf).mp hlist)
      ((s.perm _).mem_iff.mpr (List.mem_filter.mpr ⟨hk, hkc⟩)) hhost
  | false =>
    have hconf := flatMap_rows_eq h.conf fun x hx x' hxx =>
      hrows x x' hxx (hother (fun e => e.conf) hkc x hx)
    rw [(indexList_eq_iff h.conf).mpr hconf] at htext
    have hlist := List.append_cancel_left htext
    exact row_eq_of_flatMap h.autos hrows (hpairs _) ((indexList_eq_iff h.autos).mp hlist)
      ((s.perm _).mem_iff.mpr (List.mem_filter.mpr ⟨hk, by simp [hkc]⟩)) hhost

end Pages

/-! ## The order of the lines -/

theorem exists_text {ls : List CStr} (hne : ls ≠ []) (h : ∀ l ∈ ls, ∀ b ∈ l, b ≠ 0 ∧ (b == 10) = false) :
    ∃ text : Bytes, textLines text = ls := by
  have hjoin : ∃ text : Bytes, (∀ b ∈ text, b ≠ 0) ∧ text.splitOnP (· == 10) = ls := by
    induction ls with
    | nil => exact absurd rfl hne
    | cons l ls ih =>
      obtain ⟨hl, hls⟩ := List.forall_mem_cons.mp h
      cases ls with
      | nil => exact ⟨l, fun b hb => (hl b hb).1, List.splitOnP_eq_singleton fun b hb => (hl b hb).2⟩
      | cons m ls =>
        obtain ⟨text, hnul, hsplit⟩ := ih (List.cons_ne_nil _ _) hls
        refine ⟨l ++ 10 :: text, fun b hb => ?_, ?_⟩
        · rcases List.mem_append.mp hb with hb | hb
          · exact (hl b hb).1
          · rcases List.mem_cons.mp hb with rfl | hb
            · decide
            · exact hnul b hb
        · rw [List.splitOnP_append_cons_of_forall_mem (fun b hb => (hl b hb).2) 10 rfl, hsplit]
  obtain ⟨text, hnul, hsplit⟩ := hjoin
  refine ⟨text, ?_⟩
  unfold textLines untilNul
  rw [List.takeWhile_eq_self_iff.mpr fun b hb => by simpa using hnul b hb, hsplit]

theorem textLines_bytes {text : Bytes} : ∀ l ∈ textLines text, ∀ b ∈ l, b ≠ 0 ∧ (b == 10) = false :=
  fun l hl b hb => ⟨untilNul_ne_zero text b (splitOnP_subset _ l hl b hb), splitOnP_noDelim _ l hl b hb⟩

theorem indexRecords_host {text : Bytes} {domain : CStr} : HostsOf domain (indexRecords text domain) := by
  intro e he
  obtain ⟨line, -, hline⟩ := List.mem_filterMap.mp he
  exact parseRecord_host hline

theorem foremost_of_find? {es rs : List MapEntry} {host : CStr} {e : MapEntry} (hperm : es.Perm rs)
    (hes : es.Pairwise fun a b => (cmpEntry a b).isLE = true)
    (he : es.find? (fun x => x.host == host) = some e) : Foremost rs e ∧ e.host = host := by
  obtain ⟨hhost, before, after, rfl, hbefore⟩ := List.find?_eq_some_iff_append.mp he
  have hhost : e.host = host := by simpa using hhost
  refine ⟨⟨hperm.mem_iff.mp (by simp), fun x hx hxe => ?_⟩, hhost⟩
  have hself : cmpEntry e e = .eq := ReflCmp.compare_self
  rcases List.mem_append.mp (hperm.mem_iff.mpr hx) with hx | hx
  · have hne := hbefore x hx
    rw [hxe, hhost] at hne
    simp at hne
  · rcases List.mem_cons.mp hx with rfl | hx
    · rw [hself]
      rfl
    · exact (List.pairwise_cons.mp (List.pairwise_append.mp hes).2.1).1 x hx

theorem keepOne_covers {es : List MapEntry} (hes : es.Pairwise fun a b => (cmpEntry a b).isLE = true)
    {x : MapEntry} (hx : x ∈ es) : ∃ k ∈ keepOne es, k.host = x.host := by
  obtain ⟨y, hy, hyx, -⟩ := mapKept_covers hes none hx (by simp)
  have hmem : x.host ∈ (keepOne es).map MapEntry.host := by
    rw [keepOne_hosts, ← hyx]
    exact List.mem_map_of_mem hy
  exact List.mem_map.mp hmem

theorem arranged_of_perm (q q' : Qsort cmpEntry) {domain : CStr} {rs rs' : List MapEntry} (hperm : rs.Perm rs')
    (hosts : HostsOf domain rs) : Arranged domain (q.sort rs) (q'.sort rs') :=
  ⟨(q.perm rs).trans (hperm.trans (q'.perm rs').symm), q.sorted rs, q'.sorted rs',
    fun e he => hosts e ((q.perm rs).mem_iff.mp he)⟩

theorem TiesAgree.orderIndependent {text : Bytes} {domain : CStr} (h : TiesAgree text domain) (s : Qsort cmpShown)
    (page : PageTexts) (httpPort : ℤ) : OrderIndependent s page httpPort text domain := by
  intro q text' hlines
  have hrecords : (indexRecords text' domain).Perm (indexRecords text domain) := hlines.filterMap _
  have harranged := arranged_of_perm q q hrecords indexRecords_host
  have hkept : List.Forall₂ (fun k k' => SameShown k k' ∧ rowRest k = rowRest k')
      (keepOne (q.sort (indexRecords text' domain))) (keepOne (q.sort (indexRecords text domain))) := by
    refine harranged.kept fun k k' hk hk' hsame => ⟨hsame, ?_⟩
    obtain ⟨e, he, -⟩ := hk.first
    obtain ⟨e', he', -⟩ := hk'.first
    obtain ⟨hfore, hhost⟩ := foremost_of_find? ((q.perm _).trans hrecords) (q.sorted _) he
    obtain ⟨hfore', hhost'⟩ := foremost_of_find? (q.perm _) (q.sorted _) he'
    rw [hk.rowRest_eq he, hk'.rowRest_eq he']
    exact h e e' (by rw [hhost, hhost', hsame.host]) hfore hfore'
  have hlists := pageLists s (fun _ _ hR => hR.1) hkept (keepOne_distinct (q.sorted _))
  have hpage := indexPage_congr hlists page httpPort fun k k' hR => by
    obtain ⟨front, hrow, hrow'⟩ := indexRow_append (linkPort httpPort) hR.1
    rw [hrow, hrow', hR.2]
  unfold nginxIndexFormat
  split
  · rfl
  · exact congrArg some hpage

/-- Two foremost records show the same: a sort that keeps the order of equal ones puts either in front. -/
theorem OrderIndependent.ties {s : Qsort cmpShown} {page : PageTexts} {httpPort : ℤ} {text : Bytes} {domain : CStr}
    (h : OrderIndependent s page httpPort text domain) (hdomain : domain = [] ∨ validHostname domain = true) : TiesAgree text domain := by
  intro e e' hhost hfore hfore'
  obtain ⟨line, hline, he⟩ := List.mem_filterMap.mp hfore.1
  obtain ⟨line', hline', he'⟩ := List.mem_filterMap.mp hfore'.1
  by_cases hsame : line' = line
  · rw [hsame, he] at he'
    rw [Option.some.inj he']
  have hd : ¬ (domain ≠ [] ∧ validHostname domain = false) := by
    rintro ⟨hne, hfalse⟩
    rw [hdomain.resolve_left hne] at hfalse
    cases hfalse
  -- the lines with one of the two in front, and with the other
  have hperm : (line :: line' :: ((textLines text).erase line).erase line').Perm (textLines text) :=
    ((List.perm_cons_erase ((List.mem_erase_of_ne hsame).mpr hline')).symm.cons line).trans
      (List.perm_cons_erase hline).symm
  have hperm' : (line' :: line :: ((textLines text).erase line).erase line').Perm (textLines text) :=
    (List.Perm.swap _ _ _).trans hperm
  generalize ((textLines text).erase line).erase line' = rest at hperm hperm'
  obtain ⟨text₁, htext₁⟩ := exists_text (List.cons_ne_nil _ _) fun l hl =>
    textLines_bytes l (hperm.mem_iff.mp hl)
  obtain ⟨text₂, htext₂⟩ := exists_text (List.cons_ne_nil _ _) fun l hl =>
    textLines_bytes l (hperm'.mem_iff.mp hl)
  have hrecords₁ : indexRecords text₁ domain = e :: e' :: rest.filterMap (parseRecord domain true) := by
    unfold indexRecords
    rw [htext₁, List.filterMap_cons_some he, List.filterMap_cons_some he']
  have hrecords₂ : indexRecords text₂ domain = e' :: e :: rest.filterMap (parseRecord domain true) := by
    unfold indexRecords
    rw [htext₂, List.filterMap_cons_some he', List.filterMap_cons_some he]
  have hall₁ : (indexRecords text₁ domain).Perm (indexRecords text domain) := (htext₁ ▸ hperm).filterMap _
  have hall₂ : (indexRecords text₂ domain).Perm (indexRecords text domain) := (htext₂ ▸ hperm').filterMap _
  have hpages : indexPage s page httpPort
        (keepOne ((Qsort.stable cmpEntry).sort (indexRecords text₁ domain))) =
      indexPage s page httpPort
        (keepOne ((Qsort.stable cmpEntry).sort (indexRecords text₂ domain))) := by
    have h₁ := h (.stable cmpEntry) text₁ (htext₁ ▸ hperm)
    have h₂ := h (.stable cmpEntry) text₂ (htext₂ ▸ hperm')
    have hformat := h₁.trans h₂.symm
    unfold nginxIndexFormat at hformat
    rw [if_neg hd, if_neg hd] at hformat
    exact Option.some.inj hformat
  have hfind₁ : ((Qsort.stable cmpEntry).sort (indexRecords text₁ domain)).find? (fun x => x.host == e.host) =
      some e := by
    rw [hrecords₁]
    refine Qsort.find?_stable_cons (by simp) fun b hb hbe => ?_
    exact hfore.2 b (hall₁.mem_iff.mp (hrecords₁ ▸ List.mem_cons_of_mem _ hb)) (by simpa using hbe)
  have hfind₂ : ((Qsort.stable cmpEntry).sort (indexRecords text₂ domain)).find? (fun x => x.host == e.host) =
      some e' := by
    rw [hrecords₂, hhost]
    refine Qsort.find?_stable_cons (by simp) fun b hb hbe => ?_
    exact hfore'.2 b (hall₂.mem_iff.mp (hrecords₂ ▸ List.mem_cons_of_mem _ hb)) (by simpa using hbe)
  have hothers : ∀ host, e.host ≠ host →
      ((Qsort.stable cmpEntry).sort (indexRecords text₁ domain)).find? (fun x => x.host == host) =
        ((Qsort.stable cmpEntry).sort (indexRecords text₂ domain)).find? fun x => x.host == host := by
    intro host hne
    have hne' : e'.host ≠ host := hhost ▸ hne
    rw [← List.head?_filter, ← List.head?_filter, hrecords₁, hrecords₂,
      Qsort.filter_stable_cons (by simpa using hne), Qsort.filter_stable_cons (by simpa using hne'),
      Qsort.filter_stable_cons (by simpa using hne'), Qsort.filter_stable_cons (by simpa using hne)]
  have harranged := arranged_of_perm (.stable cmpEntry) (.stable cmpEntry) (hall₁.trans hall₂.symm)
    indexRecords_host
  have hkept := harranged.kept (R := fun k k' => SameShown k k' ∧ (k.host ≠ e.host → rowRest k = rowRest k') ∧
      (k.host = e.host → rowRest k = rowRest e ∧ rowRest k' = rowRest e')) fun k k' hk hk' hsame => by
    refine ⟨hsame, fun hne => ?_, fun heq => ?_⟩
    · obtain ⟨x, hx, -⟩ := hk.first
      have hx' := hx
      rw [hothers _ hne.symm, hsame.host] at hx'
      rw [hk.rowRest_eq hx, hk'.rowRest_eq hx']
    · rw [hk.rowRest_eq (heq ▸ hfind₁), hk'.rowRest_eq ((hsame.host ▸ heq) ▸ hfind₂)]
      exact ⟨rfl, rfl⟩
  have hlists := pageLists s (fun _ _ hR => hR.1) hkept
    (keepOne_distinct ((Qsort.stable cmpEntry).sorted _))
  have hmem : e ∈ (Qsort.stable cmpEntry).sort (indexRecords text₁ domain) :=
    ((Qsort.stable cmpEntry).perm _).mem_iff.mpr (hall₁.mem_iff.mpr hfore.1)
  obtain ⟨k, hk, hkhost⟩ := keepOne_covers ((Qsort.stable cmpEntry).sorted _) hmem
  obtain ⟨k', hR, hrow⟩ := row_eq_of_page hlists (fun k k' hR hne => by
    obtain ⟨front, hrow, hrow'⟩ := indexRow_append (linkPort httpPort) hR.1
    rw [hrow, hrow', hR.2.1 hne]) (keepOne_distinct ((Qsort.stable cmpEntry).sorted _)) hpages hk hkhost
  obtain ⟨front, hrow₁, hrow₂⟩ := indexRow_append (linkPort httpPort) hR.1
  obtain ⟨hrest, hrest'⟩ := hR.2.2 hkhost
  rw [hrow₁, hrow₂, hrest, hrest'] at hrow
  exact List.append_cancel_left hrow

/-- **The page is independent of the order** of its records exactly when the ties agree. -/
theorem orderIndependent_iff (s : Qsort cmpShown) (page : PageTexts) (httpPort : ℤ) (text : Bytes) {domain : CStr}
    (hdomain : domain = [] ∨ validHostname domain = true) :
    OrderIndependent s page httpPort text domain ↔ TiesAgree text domain :=
  ⟨fun h => h.ties hdomain, fun h => h.orderIndependent s page httpPort⟩

/-- Two servers that list one live client, connected for these times, and a section of one of them. -/
def twoServers (since since' : String) : Bytes :=
  ascii "L\tcam\t10.0.0.1\t1\t" ++ ascii since ++ ascii "\t-\t3\t1\t0\t0\nO\tdoor\t-\nL\tcam\t10.0.0.1\t1\t" ++
    ascii since' ++ ascii "\t-\t3\t1\t0\t0\n"

/-- The client's record on such a server. -/
def camRecord (since : ℤ) : MapEntry :=
  { MapEntry.blank with
    label := ascii "cam", host := ascii "cam.example.org", addr := 0x0a000001, addrText := ascii "10.0.0.1", conf := true
    since := since, hsAge := 3, hs := 1 }

def doorRecord : MapEntry :=
  { MapEntry.blank with label := ascii "door", host := ascii "door.example.org", live := false, conf := true }

/-- Connected for 90000 and for 90001 seconds: both show `1d01h`. -/
theorem orderIndependent_one :
    indexRecords (twoServers "90000" "90001") (ascii "example.org") = [camRecord 90000, doorRecord, camRecord 90001] ∧
      cmpEntry (camRecord 90000) (camRecord 90001) = .eq ∧
      OrderIndependent (.stable cmpShown) ⟨ascii "<h1>", ascii "1.0", ascii "</html>"⟩ 8080
        (twoServers "90000" "90001") (ascii "example.org") := by
  have hrecords : indexRecords (twoServers "90000" "90001") (ascii "example.org") =
      [camRecord 90000, doorRecord, camRecord 90001] := by decide +kernel
  have hrows : ∀ e ∈ [camRecord 90000, doorRecord, camRecord 90001],
      ∀ e' ∈ [camRecord 90000, doorRecord, camRecord 90001], e.host = e'.host → rowRest e = rowRest e' := by
    decide +kernel
  refine ⟨hrecords, by decide +kernel, (orderIndependent_iff _ _ _ _ (Or.inr (by decide +kernel))).mpr ?_⟩
  intro e e' hhost hfore hfore'
  exact hrows e (hrecords ▸ hfore.1) e' (hrecords ▸ hfore'.1) hhost

/-- Connected for 5 and for 65 seconds: the page shows the one or the other, whatever its texts and its port. -/
theorem orderIndependent_ages : ∃ text : Bytes, ∀ (s : Qsort cmpShown) (page : PageTexts) (httpPort : ℤ),
    ¬ OrderIndependent s page httpPort text (ascii "example.org") := by
  refine ⟨twoServers "5" "65", fun s page httpPort h => ?_⟩
  have hties := h.ties (Or.inr (by decide +kernel))
  have hrecords : indexRecords (twoServers "5" "65") (ascii "example.org") = [camRecord 5, doorRecord, camRecord 65] := by
    decide +kernel
  have hdoor : doorRecord.host ≠ (camRecord 5).host := by decide +kernel
  have hequal : ∀ a b, cmpEntry (camRecord a) (camRecord b) = .eq := fun a b =>
    (ReflCmp.compare_self : cmpEntry (camRecord a) (camRecord a) = .eq)
  have hfore : ∀ a ∈ [(5 : ℤ), 65], Foremost (indexRecords (twoServers "5" "65") (ascii "example.org")) (camRecord a) := by
    intro a ha
    rw [hrecords]
    refine ⟨by rcases List.mem_pair.mp ha with rfl | rfl <;> simp, fun x hx hhost => ?_⟩
    simp only [List.mem_cons, List.not_mem_nil, or_false] at hx
    rcases hx with rfl | rfl | rfl
    · rw [hequal]
      rfl
    · exact absurd hhost hdoor
    · rw [hequal]
      rfl
  exact absurd (hties (camRecord 5) (camRecord 65) rfl (hfore 5 (by simp)) (hfore 65 (by simp))) (by decide +kernel)

end Camex
