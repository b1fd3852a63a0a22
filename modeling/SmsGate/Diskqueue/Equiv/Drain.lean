import SmsGate.Diskqueue.Queue

/-!
# What a drain leaves on disk

`Drain` takes the files in the order of their names and removes each before it reads the next.  So
when it fails, the entries of the files before the failing one are gone from the disk, and are not
returned either (`drain_spec`).  Nothing is lost only if the very first file fails
(`drain_error_keeps_iff`).
-/

namespace SmsGate.Diskqueue

open Go

namespace Queue

variable {h : Host} {q : Queue} {d : Dir} {name : Name} {e : Entry}

/-- A valid entry on disk, in the file of this name. -/
def Queued (h : Host) (d : Dir) (name : Name) (e : Entry) : Prop :=
  (lit ".json").isSuffixOf name ∧ ∃ data, d.lookup name = some data ∧ h.unmarshal data = .ok e

/-! ### How entries get there -/

theorem json_ne_tmp (hjson : (lit ".json").isSuffixOf name) (id : List UInt8) :
    name ≠ id ++ lit ".tmp" := by
  rintro rfl
  obtain ⟨front, hfront⟩ := List.isSuffixOf_iff_suffix.mp hjson
  have hlast := congrArg List.getLast? hfront
  rw [List.getLast?_append_of_ne_nil _ (by decide), List.getLast?_append_of_ne_nil _ (by decide)]
    at hlast
  exact absurd hlast (by decide)

theorem lookup_osRemove {tmp : Name} (hname : name ≠ tmp) :
    (q.osRemove h tmp d).2.lookup name = d.lookup name := by
  unfold osRemove
  split
  · rfl
  · split
    · rfl
    · exact AList.lookup_erase_ne hname

/-- What `Push` can do. -/
theorem push_cases (h : Host) (q : Queue) (e : Entry) (d : Dir) :
    (∃ msg, (q.push h e d).1 = some msg ∧
      ∀ name, (lit ".json").isSuffixOf name → (q.push h e d).2.lookup name = d.lookup name) ∨
    ∃ data, h.marshal e = .ok data ∧
      q.push h e d = (none, ((d.insert (e.id ++ lit ".tmp") data).erase (e.id ++ lit ".tmp")).insert
        (e.id ++ lit ".json") data) := by
  unfold push
  cases hmarshal : h.marshal e with
  | error text => exact .inl ⟨_, rfl, fun _ _ => rfl⟩
  | ok data =>
    have hother : ∀ part name, (lit ".json").isSuffixOf name →
        (d.insert (e.id ++ lit ".tmp") part).lookup name = d.lookup name := fun part name hjson =>
      AList.lookup_insert_ne (json_ne_tmp hjson e.id)
    dsimp only
    rcases hwrite : h.writeErr (e.id ++ lit ".tmp") with _ | ⟨text, _ | part⟩
    · have hrename : (d.insert (e.id ++ lit ".tmp") data).lookup (e.id ++ lit ".tmp") = some data :=
        AList.lookup_insert _
      rw [writeFile, hwrite]
      dsimp only
      rw [rename, hrename]
      dsimp only
      cases h.renameErr (e.id ++ lit ".json") with
      | none => exact .inr ⟨data, rfl, rfl⟩
      | some text =>
        refine .inl ⟨_, rfl, fun name hjson => ?_⟩
        exact (lookup_osRemove (json_ne_tmp hjson e.id)).trans (hother data name hjson)
    · rw [writeFile, hwrite]
      exact .inl ⟨_, rfl, fun _ _ => rfl⟩
    · rw [writeFile, hwrite]
      exact .inl ⟨_, rfl, hother part⟩

/-- A `Push` that fails leaves the entries as they are. -/
theorem queued_push_of_error {msg : List UInt8} (herr : (q.push h e d).1 = some msg) (e' : Entry) :
    Queued h (q.push h e d).2 name e' ↔ Queued h d name e' := by
  rcases push_cases h q e d with ⟨-, -, hlookup⟩ | ⟨data, -, hpush⟩
  · exact and_congr_right fun hjson => by rw [hlookup name hjson]
  · rw [hpush] at herr
    cases herr

/-- One that succeeds leaves the others, and queues the new one if it is what `encoding/json` reads
back. -/
theorem queued_push (hok : (q.push h e d).1 = none) (e' : Entry) :
    Queued h (q.push h e d).2 name e' ↔
      if name = e.id ++ lit ".json" then ∃ data, h.marshal e = .ok data ∧ h.unmarshal data = .ok e'
      else Queued h d name e' := by
  rcases push_cases h q e d with ⟨msg, herr, -⟩ | ⟨data, hmarshal, hpush⟩
  · rw [hok] at herr
    cases herr
  · rw [hpush, hmarshal]
    split_ifs with hname
    · have hjson : (lit ".json").isSuffixOf name :=
        List.isSuffixOf_iff_suffix.mpr ⟨e.id, hname.symm⟩
      have hlookup : ((((d.insert (e.id ++ lit ".tmp") data).erase (e.id ++ lit ".tmp")).insert
          (e.id ++ lit ".json") data).lookup name) = some data := by
        rw [hname, AList.lookup_insert]
      rw [Queued, and_iff_right hjson, hlookup]
      exact ⟨fun ⟨_, hdata, he⟩ => ⟨data, rfl, Option.some.inj hdata ▸ he⟩,
        fun ⟨_, hdata, he⟩ => ⟨data, rfl, Except.ok.inj hdata ▸ he⟩⟩
    · refine and_congr_right fun hjson => ?_
      have htmp := json_ne_tmp hjson e.id
      rw [AList.lookup_insert_ne hname, AList.lookup_erase_ne htmp, AList.lookup_insert_ne htmp]

/-- A file that `Drain` can read, unmarshal and remove. -/
@[mk_iff]
structure Drains (h : Host) (d : Dir) (name : Name) (e : Entry) : Prop where
  readErr : h.readErr name = none
  data : ∃ data, d.lookup name = some data ∧ h.unmarshal data = .ok e
  removeErr : h.removeErr name = none

theorem drains_erase_iff {x : Name} (hx : name ≠ x) :
    Drains h (d.erase x) name e ↔ Drains h d name e := by
  rw [drains_iff, drains_iff, AList.lookup_erase_ne hx]

theorem Drains.of_erase {x : Name} (hd : Drains h (d.erase x) name e) : Drains h d name e := by
  by_cases hx : name = x
  · obtain ⟨data, hdata, -⟩ := hd.data
    rw [hx, AList.lookup_erase] at hdata
    cases hdata
  · exact (drains_erase_iff hx).mp hd

/-! ### The loop -/

theorem drainLoop_of_drains (hd : Drains h d name e) (names : List Name) (entries : List Entry) :
    q.drainLoop h (name :: names) entries d =
      q.drainLoop h names (entries ++ [e]) (d.erase name) := by
  obtain ⟨hread, ⟨data, hdata, he⟩, hremove⟩ := hd
  have hreadFile : q.readFile h name d = .ok data := by
    rw [readFile, hdata, hread]
  have hosRemove : q.osRemove h name d = (none, d.erase name) := by
    rw [osRemove, hdata, hremove]
  rw [drainLoop, hreadFile]
  dsimp only
  rw [he, hosRemove]

/-- A file that is there and cannot be drained stops the loop, and stays. -/
theorem drainLoop_of_not_drains (hname : name ∈ d) (hd : ∀ e, ¬ Drains h d name e)
    (names : List Name) (entries : List Entry) :
    ∃ msg, q.drainLoop h (name :: names) entries d = (.error msg, d) := by
  obtain ⟨data, hdata⟩ := Option.isSome_iff_exists.mp (AList.lookup_isSome.mpr hname)
  unfold drainLoop
  cases hread : h.readErr name with
  | some text =>
    rw [readFile, hdata, hread]
    exact ⟨_, rfl⟩
  | none =>
    have hreadFile : q.readFile h name d = .ok data := by
      rw [readFile, hdata, hread]
    rw [hreadFile]
    dsimp only
    cases he : h.unmarshal data with
    | error text => exact ⟨_, rfl⟩
    | ok e =>
      cases hremove : h.removeErr name with
      | none => exact absurd ⟨hread, ⟨data, hdata, he⟩, hremove⟩ (hd e)
      | some text =>
        rw [osRemove, hdata, hremove]
        exact ⟨_, rfl⟩

/-- How far the loop gets: the files in `done` are removed and nothing else is, up to the end or to
a file that cannot be drained. -/
theorem drainLoop_spec (names : List Name) (hnodup : names.Nodup) (hmem : ∀ name ∈ names, name ∈ d)
    (entries : List Entry) :
    ∃ done es rest, names = done ++ rest ∧ List.Forall₂ (Drains h d) done es ∧
      (∀ name, (q.drainLoop h names entries d).2.lookup name =
        if name ∈ done then none else d.lookup name) ∧
      (rest = [] ∧ (q.drainLoop h names entries d).1 = .ok (entries ++ es) ∨
        (∃ name ∈ rest.head?, ∀ e, ¬ Drains h d name e) ∧
          ∃ msg, (q.drainLoop h names entries d).1 = .error msg) := by
  induction names generalizing entries d with
  | nil =>
    refine ⟨[], [], [], rfl, .nil, fun _ => rfl, .inl ⟨rfl, ?_⟩⟩
    rw [drainLoop, List.append_nil]
  | cons name names ih =>
    obtain ⟨hname, hnodup⟩ := List.nodup_cons.mp hnodup
    obtain ⟨hhere, hmem⟩ := List.forall_mem_cons.mp hmem
    by_cases hd : ∃ e, Drains h d name e
    · obtain ⟨e, hd⟩ := hd
      have hmem' : ∀ x ∈ names, x ∈ d.erase name := fun x hx =>
        AList.mem_erase.mpr ⟨ne_of_mem_of_not_mem hx hname, hmem x hx⟩
      obtain ⟨done, es, rest, rfl, hdone, hlookup, hend⟩ := ih hnodup hmem' (entries ++ [e])
      rw [drainLoop_of_drains hd]
      refine ⟨name :: done, e :: es, rest, rfl, .cons hd (hdone.imp fun _ _ => Drains.of_erase),
        fun x => ?_, ?_⟩
      · rw [hlookup]
        by_cases hx : x = name
        · rw [hx, AList.lookup_erase, if_pos List.mem_cons_self, ite_self]
        · rw [AList.lookup_erase_ne hx]
          exact if_congr (by rw [List.mem_cons, or_iff_right hx]) rfl rfl
      · rcases hend with ⟨hrest, hok⟩ | ⟨⟨x, hx, hstuck⟩, herr⟩
        · exact .inl ⟨hrest, by rw [hok, List.append_assoc, List.singleton_append]⟩
        · have hxname : x ≠ name :=
            ne_of_mem_of_not_mem (List.mem_append_right done (List.mem_of_mem_head? hx)) hname
          refine .inr ⟨⟨x, hx, fun e' hd' => hstuck e' ?_⟩, herr⟩
          exact (drains_erase_iff hxname).mpr hd'
    · rw [not_exists] at hd
      obtain ⟨msg, hstop⟩ := drainLoop_of_not_drains hhere hd names entries (q := q)
      rw [hstop]
      exact ⟨[], [], name :: names, rfl, .nil, fun _ => rfl, .inr ⟨⟨name, rfl, hd⟩, msg, rfl⟩⟩

/-! ### The files that it takes -/

theorem glob_eq_ok {names : List Name} (hglob : glob h d = .ok names) :
    names.Nodup ∧ ∀ name, name ∈ names ↔ name ∈ d ∧ (lit ".json").isSuffixOf name := by
  unfold glob at hglob
  split at hglob
  · cases hglob
  · injection hglob with hnames
    subst hnames
    refine ⟨(List.perm_insertionSort _ _).nodup_iff.mpr (d.keys_nodup.filter _), fun name => ?_⟩
    rw [List.mem_insertionSort, List.mem_filter, AList.mem_keys]

/-- How far `Drain` gets. -/
theorem drain_spec {names : List Name} (hglob : glob h d = .ok names) :
    ∃ done es rest, names = done ++ rest ∧ List.Forall₂ (Drains h d) done es ∧
      (∀ name, (q.drain h d).2.lookup name = if name ∈ done then none else d.lookup name) ∧
      (rest = [] ∧ (q.drain h d).1 = .ok es ∨
        (∃ name ∈ rest.head?, ∀ e, ¬ Drains h d name e) ∧ ∃ msg, (q.drain h d).1 = .error msg) := by
  obtain ⟨hnodup, hmem⟩ := glob_eq_ok hglob
  rw [drain, hglob]
  exact drainLoop_spec names hnodup (fun name hname => ((hmem name).mp hname).1) []

/-- A `Drain` without error returns an entry for each file, and leaves none. -/
theorem drain_ok {es : List Entry} (hok : (q.drain h d).1 = .ok es) :
    ∃ names, glob h d = .ok names ∧ List.Forall₂ (Queued h d) names es ∧
      ∀ name e, ¬ Queued h (q.drain h d).2 name e := by
  cases hglob : glob h d with
  | error text =>
    rw [drain, hglob] at hok
    cases hok
  | ok names =>
    obtain ⟨-, hmem⟩ := glob_eq_ok hglob
    obtain ⟨done, es', rest, rfl, hdone, hlookup, hend⟩ := drain_spec (q := q) hglob
    rcases hend with ⟨rfl, hes⟩ | ⟨-, msg, hmsg⟩
    · obtain rfl := Except.ok.inj (hes.symm.trans hok)
      rw [List.append_nil] at hmem ⊢
      have hjson : ∀ name ∈ done, (lit ".json").isSuffixOf name := fun name hname =>
        ((hmem name).mp hname).2
      refine ⟨done, rfl, ?_, ?_⟩
      · exact ((List.forall₂_and_left _ _).mpr ⟨hjson, hdone⟩).imp fun _ _ hd => ⟨hd.1, hd.2.data⟩
      · rintro name e ⟨hjson, data, hdata, -⟩
        rw [hlookup] at hdata
        split_ifs at hdata with hname
        have hhere : name ∈ d := AList.lookup_isSome.mp (Option.isSome_of_mem hdata)
        exact hname ((hmem name).mpr ⟨hhere, hjson⟩)
    · rw [hmsg] at hok
      cases hok

/-! ### The main result -/

/-- **What a failed `Drain` loses.**  If `Drain` returns an error, then every valid entry that was
queued is still on disk iff the first file in the order of their names is the one that could not be
read, unmarshalled or removed, or there are none since `Glob` itself failed. -/
theorem drain_error_keeps_iff (h : Host) (q : Queue) (d : Dir) (msg : List UInt8)
    (herr : (q.drain h d).1 = .error msg) :
    (∀ name e, Queued h d name e → Queued h (q.drain h d).2 name e) ↔
      ∀ names, glob h d = .ok names → ∀ name ∈ names.head?, ∀ e, ¬ Drains h d name e := by
  cases hglob : glob h d with
  | error text =>
    rw [drain, hglob]
    exact iff_of_true (fun _ _ hqueued => hqueued) nofun
  | ok names =>
    obtain ⟨-, hmem⟩ := glob_eq_ok hglob
    obtain ⟨done, es, rest, rfl, hdone, hlookup, hend⟩ := drain_spec (q := q) hglob
    obtain ⟨x, hx, hstuck⟩ : ∃ name ∈ rest.head?, ∀ e, ¬ Drains h d name e := by
      rcases hend with ⟨-, hok⟩ | ⟨hstuck, -⟩
      · rw [hok] at herr
        cases herr
      · exact hstuck
    constructor
    · intro hkeeps names hnames name hname e hd
      obtain rfl := Except.ok.inj hnames
      -- a first file that can be drained has been removed
      have hgone : name ∈ done := by
        cases done with
        | nil =>
          obtain rfl := Option.mem_unique hx hname
          exact absurd hd (hstuck e)
        | cons y done =>
          obtain rfl := Option.some.inj hname
          exact List.mem_cons_self
      have hqueued : Queued h d name e :=
        ⟨((hmem name).mp (List.mem_append_left rest hgone)).2, hd.data⟩
      obtain ⟨-, data, hdata, -⟩ := hkeeps name e hqueued
      rw [hlookup, if_pos hgone] at hdata
      cases hdata
    · intro hfirst name e hqueued
      have hnone : done = [] := by
        cases hdone with
        | nil => rfl
        | cons hd _ => exact absurd hd (hfirst _ rfl _ rfl _)
      refine ⟨hqueued.1, ?_⟩
      rw [hlookup, hnone, if_neg List.not_mem_nil]
      exact hqueued.2

/-- A host that refuses nothing and reads whatever is not empty as the same entry. -/
def lenient : Host where
  marshal _ := .ok (lit "\x7b\x7d")
  unmarshal data :=
    if data = [] then .error (lit "unexpected end of JSON input") else .ok ⟨[], [], [], [], 0, 0⟩
  mkdirErr := none
  globErr := none
  readErr _ := none
  removeErr _ := none
  writeErr _ := none
  renameErr _ := none

/-- A directory with two files. -/
def twoFiles (a b : List UInt8) : Dir := List.toAList [⟨lit "a.json", a⟩, ⟨lit "b.json", b⟩]

/-- An empty file before all others. -/
theorem drain_error_keeps_iff_first :
    ((Queue.mk (lit "q")).drain lenient (twoFiles [] (lit "\x7b\x7d"))).1 =
      .error (lit "diskqueue: unmarshal " ++ lit "q/a.json" ++ lit ": " ++
        lit "unexpected end of JSON input") ∧
    Queued lenient ((Queue.mk (lit "q")).drain lenient (twoFiles [] (lit "\x7b\x7d"))).2
      (lit "b.json") ⟨[], [], [], [], 0, 0⟩ := by
  have herr : ((Queue.mk (lit "q")).drain lenient (twoFiles [] (lit "\x7b\x7d"))).1 =
      .error (lit "diskqueue: unmarshal " ++ lit "q/a.json" ++ lit ": " ++
        lit "unexpected end of JSON input") := rfl
  refine ⟨herr, (drain_error_keeps_iff _ _ _ _ herr).mpr ?_ _ _ ⟨by decide, _, rfl, by decide⟩⟩
  rintro names hnames name hname e ⟨-, ⟨data, hdata, he⟩, -⟩
  obtain rfl := Except.ok.inj hnames
  obtain rfl : lit "a.json" = name := Option.some.inj hname
  obtain rfl : [] = data := Option.some.inj hdata
  cases he

/-- An empty file behind another: the entry of the other is lost. -/
theorem not_drain_error_keeps :
    ((Queue.mk (lit "q")).drain lenient (twoFiles (lit "\x7b\x7d") [])).1 =
      .error (lit "diskqueue: unmarshal " ++ lit "q/b.json" ++ lit ": " ++
        lit "unexpected end of JSON input") ∧
    Queued lenient (twoFiles (lit "\x7b\x7d") []) (lit "a.json") ⟨[], [], [], [], 0, 0⟩ ∧
    ¬ Queued lenient ((Queue.mk (lit "q")).drain lenient (twoFiles (lit "\x7b\x7d") [])).2
      (lit "a.json") ⟨[], [], [], [], 0, 0⟩ := by
  refine ⟨rfl, ⟨by decide, _, rfl, by decide⟩, ?_⟩
  rintro ⟨-, data, hdata, -⟩
  have hgone : (((Queue.mk (lit "q")).drain lenient (twoFiles (lit "\x7b\x7d") [])).2).lookup
      (lit "a.json") = none := by decide
  rw [hgone] at hdata
  cases hdata

end Queue

end SmsGate.Diskqueue
