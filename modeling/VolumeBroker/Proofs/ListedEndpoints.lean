import VolumeBroker.Proofs.LogGrouping
import VolumeBroker.Proofs.LogRenderings
import VolumeBroker.Proofs.VolumeContexts

/-!
# Endpoints listed in a context

A context lists several endpoints in one text, with commas between them and nothing that would set
apart a comma of an endpoint.  Whoever splits the text at its commas gets as many parts as there are
endpoints, and one more for every comma that an endpoint has.  So the endpoints come out as they
were exactly if none has a comma, and contexts tell devices apart as far as their transports and
their lists of several endpoints go.
-/

set_option autoImplicit false

namespace VolumeBroker

/-! ## Splitting at commas -/

/-- The parts of a text between its commas, as a consumer of a context reads them. -/
def splitAtCommas (text : String) : List String := (text.toList.splitOn ',').map String.ofList

/-- No endpoint has a comma. -/
def CommaFree (endpoints : List String) : Prop := ∀ e ∈ endpoints, ',' ∉ e.toList

/-- Whether there is a comma can be seen by going through the endpoints. -/
instance (endpoints : List String) : Decidable (CommaFree endpoints) :=
  inferInstanceAs (Decidable (∀ e ∈ endpoints, ',' ∉ e.toList))

/-- A text has one part more than it has commas. -/
theorem length_splitAtCommas (text : String) :
    (splitAtCommas text).length = text.toList.count ',' + 1 := by
  rw [splitAtCommas, List.length_map]
  induction text.toList with
  | nil => rfl
  | cons c cs ih =>
    rw [List.splitOn_cons_eq_if_modifyHead, List.count_cons]
    split
    · rw [List.length_cons, ih]
    · rw [List.length_modifyHead, ih, Nat.add_zero]

/-- The endpoints are joined with commas between them. -/
theorem toList_joinEndpoints (endpoints : List String) :
    (joinEndpoints endpoints).toList = [','].intercalate (endpoints.map String.toList) :=
  String.toList_ofList

/-- The commas of a list are those of the endpoints and those between them. -/
theorem count_joinEndpoints {endpoints : List String} (h : endpoints ≠ []) :
    (joinEndpoints endpoints).toList.count ',' + 1 =
      (endpoints.flatMap String.toList).count ',' + endpoints.length := by
  rw [toList_joinEndpoints]
  induction endpoints with
  | nil => exact absurd rfl h
  | cons e rest ih =>
    cases rest with
    | nil => simp
    | cons e' rest =>
      have hrest := ih (by simp)
      rw [List.map_cons] at hrest
      rw [List.map_cons, List.map_cons, List.intercalate_cons_cons, List.count_append,
        List.count_append, List.count_singleton_self, List.flatMap_cons, List.count_append,
        List.length_cons]
      omega

/-- Endpoints without commas can be told apart after they have been joined. -/
theorem splitAtCommas_joinEndpoints {endpoints : List String} (hne : endpoints ≠ [])
    (h : CommaFree endpoints) : splitAtCommas (joinEndpoints endpoints) = endpoints := by
  have hfree : ∀ cs ∈ endpoints.map String.toList, ',' ∉ cs := by
    intro cs hcs
    obtain ⟨e, he, rfl⟩ := List.mem_map.mp hcs
    exact h e he
  rw [splitAtCommas, toList_joinEndpoints, List.splitOn_intercalate ',' hfree (by simpa using hne),
    List.map_map]
  exact (List.map_congr_left fun e _ => String.ofList_toList).trans (List.map_id endpoints)

/-- If an endpoint has a comma, the text has more parts than there are endpoints. -/
theorem length_lt_of_not_commaFree {endpoints : List String} (h : ¬ CommaFree endpoints) :
    endpoints.length < (splitAtCommas (joinEndpoints endpoints)).length := by
  obtain ⟨e, he, hcomma⟩ : ∃ e ∈ endpoints, ',' ∈ e.toList := by
    simpa [CommaFree] using h
  have hcount := count_joinEndpoints (List.ne_nil_of_mem he)
  have hpos : 0 < (endpoints.flatMap String.toList).count ',' :=
    List.count_pos_iff.mpr (List.mem_flatMap.mpr ⟨e, he, hcomma⟩)
  rw [length_splitAtCommas]
  omega

/-- What comes out are the endpoints exactly if none of them has a comma. -/
theorem splitAtCommas_joinEndpoints_iff {endpoints : List String} (hne : endpoints ≠ []) :
    splitAtCommas (joinEndpoints endpoints) = endpoints ↔ CommaFree endpoints := by
  refine ⟨fun h => ?_, splitAtCommas_joinEndpoints hne⟩
  by_contra hcomma
  have hlt := length_lt_of_not_commaFree hcomma
  rw [h] at hlt
  exact Nat.lt_irrefl _ hlt

example : splitAtCommas (joinEndpoints ["10.0.0.1:4420", "10.0.0.2,4:4420", ""]) =
    ["10.0.0.1:4420", "10.0.0.2", "4:4420", ""] := by cbv

/-! ## Contexts -/

/-- The endpoints of a device that has several; of one that has not, none are told. -/
def multipath (endpoints : List String) : List String :=
  if 1 < endpoints.length then endpoints else []

/-- Fewer than two endpoints are not told. -/
theorem multipath_of_length_lt {endpoints : List String} (h : endpoints.length < 2) :
    multipath endpoints = [] :=
  if_neg (by omega)

namespace Device

variable {d d' : Device}

/-- The endpoints are told exactly if there are several. -/
theorem mem_endpointsKey_iff : endpointsKey ∈ d.volumeContext ↔ 2 ≤ d.endpoints.length := by
  rw [Std.ExtTreeMap.mem_iff_isSome_getElem?, getElem?_endpoints_volumeContext]
  show _ ↔ 1 < d.endpoints.length
  by_cases h : 1 < d.endpoints.length <;> simp [h]

/-- The context tells of the endpoints only what it tells of several. -/
theorem volumeContext_multipath (d : Device) :
    ({ d with endpoints := multipath d.endpoints } : Device).volumeContext = d.volumeContext := by
  unfold volumeContext multipath
  by_cases h : 1 < d.endpoints.length <;> simp [h]

/-- What is told of a device is its transport and its endpoints, if there are several. -/
theorem volumeContext_congr (htransport : d.transport = d'.transport)
    (hmultipath : multipath d.endpoints = multipath d'.endpoints) :
    d.volumeContext = d'.volumeContext := by
  rw [← d.volumeContext_multipath, ← d'.volumeContext_multipath]
  simp only [volumeContext, htransport, hmultipath]

/-- The transport can be read off the context. -/
theorem transport_of_volumeContext_eq (h : d.volumeContext = d'.volumeContext) :
    d.transport = d'.transport := by
  have hnames : d.transport.map (·.name) = d'.transport.map (·.name) := by
    rw [← getElem?_transport_volumeContext, ← getElem?_transport_volumeContext, h]
  exact Option.map_injective (fun t t' hname => Transport.name_inj.mp hname) hnames

/-- Several endpoints without commas are read off the context. -/
theorem multipath_eq_of_commaFree (hfree : CommaFree d.endpoints) :
    multipath d.endpoints = (d.volumeContext[endpointsKey]?.map splitAtCommas).getD [] := by
  rw [getElem?_endpoints_volumeContext, multipath]
  by_cases hseveral : 1 < d.endpoints.length
  · have hne : d.endpoints ≠ [] := List.ne_nil_of_length_pos (by omega)
    rw [if_pos hseveral, if_pos hseveral, Option.map_some, Option.getD_some,
      splitAtCommas_joinEndpoints hne hfree]
  · rw [if_neg hseveral, if_neg hseveral, Option.map_none, Option.getD_none]

/-- Without commas, the context tells the transport and the endpoints that are several, and nothing
else. -/
theorem volumeContext_eq_iff (hfree : CommaFree d.endpoints) (hfree' : CommaFree d'.endpoints) :
    d.volumeContext = d'.volumeContext ↔
      d.transport = d'.transport ∧ multipath d.endpoints = multipath d'.endpoints := by
  refine ⟨fun h => ⟨transport_of_volumeContext_eq h, ?_⟩, fun h => volumeContext_congr h.1 h.2⟩
  rw [multipath_eq_of_commaFree hfree, multipath_eq_of_commaFree hfree', h]

/-- Devices that have not several endpoints are told apart by their transports only. -/
theorem volumeContext_eq_iff_of_single (hsingle : d.endpoints.length < 2)
    (hsingle' : d'.endpoints.length < 2) :
    d.volumeContext = d'.volumeContext ↔ d.transport = d'.transport := by
  refine ⟨transport_of_volumeContext_eq, fun h => volumeContext_congr h ?_⟩
  rw [multipath_of_length_lt hsingle, multipath_of_length_lt hsingle']

end Device

/-! ## Created volumes -/

/-- A descriptor that stands in a discovery log. -/
def Descriptor.IsLogged (x : Descriptor) : Prop :=
  ∃ (text : String) (found : List Descriptor), parseLog text = .ok found ∧ x ∈ found

/-- A descriptor that stands in a log has an endpoint. -/
theorem Descriptor.IsLogged.endpoints_ne_nil {x : Descriptor} (h : x.IsLogged) :
    x.endpoints ≠ [] := by
  obtain ⟨text, found, hparse, hx⟩ := h
  obtain ⟨records, -, rfl⟩ := parseLog_eq_ok_iff.mp hparse
  obtain ⟨first, -, -, -, -, hhead⟩ := exists_first_path hx
  intro hempty
  rw [hempty] at hhead
  cases hhead

namespace Traffic

/-- The event is the work of a creation, and the device is the one that it gives out. -/
structure GivesOut (t : Traffic) (e : Event) (volume : CreatedVolume) (d : Device) : Prop where
  performs : ∃ request : CreateRequest, t.Performs e (.create request) (.ok (.created volume))
  device : (t.step e).system.broker.catalog[volume.id]? = some d

/-- What the process has been told first of a device. -/
def firstReport? (store : Store) (events : List Event) (nqn : String) : Option Descriptor :=
  (System.reports ((start store).trace events)).find? (·.nqn == nqn)

variable {store : Store} {before : List Event} {e : Event} {volume : CreatedVolume} {d : Device}

/-- In any traffic the devices are kept under their own names. -/
theorem named_run (store : Store) (events : List Event) :
    ((start store).run events).system.broker.catalog.Named := by
  rw [system_run]
  exact (System.sound_run store _).named

/-- The context that a creation answers is that of the device it gives out. -/
theorem GivesOut.context_eq (h : ((start store).run before).GivesOut e volume d) :
    volume.context = d.volumeContext := by
  obtain ⟨request, hperforms⟩ := h.performs
  obtain ⟨d', hd', -, hcontext, -⟩ := hperforms.created_device (named_run store before)
  obtain rfl : d' = d := Option.some.inj (hd'.symm.trans h.device)
  exact hcontext

/-- The device has the addressing that the process has been told of first. -/
theorem GivesOut.addressedBy (h : ((start store).run before).GivesOut e volume d) :
    d.AddressedBy (firstReport? store before volume.id) := by
  obtain ⟨request, hperforms⟩ := h.performs
  have hreflects : ((start store).run before).system.broker.catalog.Reflects
      (System.reports ((start store).trace before)) := by
    rw [system_run]
    exact System.reflects_run store _
  exact (hperforms.reflects_step hreflects).addressed volume.id d h.device

/-- Take a creation that has returned a volume, in any run, and the device that its work has given
out.  Its context has an entry for the endpoints exactly if the device has at least two.  A text
that stands there is split at its commas into the endpoints, in their order, exactly if no endpoint
has a comma, and into more parts than there are endpoints otherwise.  A device of which a log was
the first to tell has the transport and the endpoints of the log, at least one.

Take another creation, in any run.  If no endpoint of the two devices has a comma, then the contexts
are equal exactly if the transports are and the devices have the same endpoints, of which those of
a device with fewer than two do not count.  If both have fewer than two, then the contexts are equal
exactly if the transports are. -/
theorem created_context_lists_endpoints (store : Store) (events : List Event) (i : Nat)
    (op : Operation) (request : CreateRequest) (volume : CreatedVolume)
    (hop : ((start store).run events).operations[i]? = some op)
    (hrequest : op.request = .create request)
    (hok : op.outcome? = some (.ok (.created volume))) :
    ∃ (before after : List Event) (around : Surroundings) (d : Device),
      events = before ++ .advance i around :: after ∧ (∀ e ∈ after, e ≠ .beside .restart) ∧
      ((start store).run before).GivesOut (.advance i around) volume d ∧
      (endpointsKey ∈ volume.context ↔ 2 ≤ d.endpoints.length) ∧
      (∀ value : String, volume.context[endpointsKey]? = some value →
        (splitAtCommas value = d.endpoints ↔ CommaFree d.endpoints) ∧
        (¬ CommaFree d.endpoints → d.endpoints.length < (splitAtCommas value).length)) ∧
      (∀ x : Descriptor, firstReport? store before volume.id = some x → x.IsLogged →
        d.transport = some x.transport ∧ d.endpoints = x.endpoints ∧ x.endpoints ≠ []) ∧
      ∀ (store' : Store) (before' : List Event) (e' : Event) (volume' : CreatedVolume)
        (d' : Device), ((start store').run before').GivesOut e' volume' d' →
        (CommaFree d.endpoints → CommaFree d'.endpoints →
          (volume.context = volume'.context ↔
            d.transport = d'.transport ∧ multipath d.endpoints = multipath d'.endpoints)) ∧
        (d.endpoints.length < 2 → d'.endpoints.length < 2 →
          (volume.context = volume'.context ↔ d.transport = d'.transport)) := by
  obtain ⟨before, after, around, hsplit, hafter, hperforms⟩ := performed_run hop hok
  rw [hrequest] at hperforms
  obtain ⟨d, hd, -, -, -⟩ := hperforms.created_device (named_run store before)
  have hgives : ((start store).run before).GivesOut (.advance i around) volume d :=
    ⟨⟨request, hperforms⟩, hd⟩
  have hcontext : volume.context = d.volumeContext := hgives.context_eq
  refine ⟨before, after, around, d, hsplit, hafter, hgives, ?_, fun value hvalue => ?_,
    fun x hx hlogged => ?_, fun store' before' e' volume' d' hgives' => ⟨fun hfree hfree' => ?_,
      fun hsingle hsingle' => ?_⟩⟩
  · rw [hcontext, Device.mem_endpointsKey_iff]
  · rw [hcontext, Device.getElem?_endpoints_volumeContext, Option.ite_none_right_eq_some,
      Option.some.injEq] at hvalue
    obtain ⟨hseveral, rfl⟩ := hvalue
    exact ⟨splitAtCommas_joinEndpoints_iff (List.ne_nil_of_length_pos (by omega)),
      length_lt_of_not_commaFree⟩
  · obtain ⟨htransport, hendpoints⟩ := hgives.addressedBy
    rw [hx] at htransport hendpoints
    exact ⟨htransport, hendpoints, hlogged.endpoints_ne_nil⟩
  · rw [hcontext, hgives'.context_eq, Device.volumeContext_eq_iff hfree hfree']
  · rw [hcontext, hgives'.context_eq, Device.volumeContext_eq_iff_of_single hsingle hsingle']

/-- The creation of `vol1` while the fabric has a device with two endpoints. -/
def multipathCreation : List Event :=
  [.beside .enterSync, .beside (.load 0 {}), .beside (.finishLoad 0),
    .arrive (.create ⟨"vol1", [some .mount], ∅⟩)] ++
  List.replicate 7 (.advance 0
    { fabric := fun _ => .ok [⟨"nqn-b", .tcp, ["10.0.0.1:4420", "10.0.0.2:4420"]⟩] })

/-- The endpoints of the device are known from the context alone. -/
theorem multipathCreation_tells_endpoints : ∃ (op : Operation) (volume : CreatedVolume),
    ((start (.inMemory ∅)).run multipathCreation).operations[0]? = some op ∧
      op.outcome? = some (.ok (.created volume)) ∧
      ∃ (before : List Event) (e : Event) (d : Device),
        ((start (.inMemory ∅)).run before).GivesOut e volume d ∧
          d.endpoints = ["10.0.0.1:4420", "10.0.0.2:4420"] := by
  obtain ⟨op, volume, hop, hrequest, hok, hvalue⟩ : ∃ (op : Operation) (volume : CreatedVolume),
      ((start (.inMemory ∅)).run multipathCreation).operations[0]? = some op ∧
        op.request = .create ⟨"vol1", [some .mount], ∅⟩ ∧
        op.outcome? = some (.ok (.created volume)) ∧
        volume.context[endpointsKey]? = some "10.0.0.1:4420,10.0.0.2:4420" := by
    refine ⟨_, ⟨"nqn-b", _⟩, rfl, rfl, rfl, ?_⟩
    decide
  obtain ⟨before, -, around, d, -, -, hgives, hkey, hsplit, -, -⟩ :=
    created_context_lists_endpoints (.inMemory ∅) _ 0 op _ volume hop hrequest hok
  have hparts : splitAtCommas "10.0.0.1:4420,10.0.0.2:4420" =
      ["10.0.0.1:4420", "10.0.0.2:4420"] := by cbv
  obtain ⟨hback, hmore⟩ := hsplit _ hvalue
  have hseveral : 2 ≤ d.endpoints.length := by
    rw [← hkey, Std.ExtTreeMap.mem_iff_isSome_getElem?, hvalue]
    rfl
  have hfree : CommaFree d.endpoints := by
    by_contra hcomma
    have hlt := hmore hcomma
    rw [hparts] at hlt
    exact absurd hseveral (Nat.not_le.mpr hlt)
  exact ⟨op, volume, hop, hok, before, _, d, hgives, (hback.mpr hfree).symm.trans hparts⟩

end Traffic

end VolumeBroker
