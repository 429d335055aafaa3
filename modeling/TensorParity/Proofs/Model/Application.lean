import TensorParity.Proofs.Model.Assembly
import TensorParity.Proofs.Model.Flow
import TensorParity.Proofs.Model.Layer

/-!
Models of one layer. What a layer demands when it is made is what its kernel demands of the
constants later: sizes divide by the groups, and weights and biases have the shapes that the kernel
reads. So a layer that could be made makes a model, and the model runs on every input of matching
channels.
-/
namespace TensorParity

namespace Table

variable {α β : Type}

/-- A table of mapped entries. -/
theorem map_ofList (f : α → β) (entries : List (String × α)) :
    (ofList entries).map f = ofList (entries.map fun entry => (entry.1, f entry.2)) := by
  have hfold (t : Table α) : (entries.foldl (fun t entry => t.insert entry.1 entry.2) t).map f =
      (entries.map fun entry => (entry.1, f entry.2)).foldl
        (fun t entry => t.insert entry.1 entry.2) (t.map f) := by
    induction entries generalizing t with
    | nil => rfl
    | cons entry entries ih =>
      rw [List.foldl_cons, ih, ← insert_map]
      rfl
  exact hfold .empty

theorem find?_ofList {entries : List (String × α)} (hdistinct : (entries.map (·.1)).Nodup)
    {key : String} {value : α} (h : (key, value) ∈ entries) :
    (ofList entries).find? key = some value := by
  have hfound := find?_foldl_insert id hdistinct .empty key
  rw [find?_empty, Option.or_none, Option.map_id, id, (find?_entries hdistinct).mpr h] at hfound
  exact hfound

theorem keys_ofList_perm {entries : List (String × α)} (hdistinct : (entries.map (·.1)).Nodup) :
    (ofList entries).keys.Perm (entries.map (·.1)) := by
  refine (List.perm_ext_iff_of_nodup (nodup_keys _) hdistinct).mpr fun key => ?_
  exact (mem_keys_foldl_insert Prod.fst Prod.snd).trans (or_iff_left List.not_mem_nil)

end Table

namespace Model

variable {inputs constants constants' outputs : List String} {nodes : List Node}

/-- The order of constants does not matter to a model. -/
theorem WellFormed.perm (h : WellFormed inputs constants nodes outputs)
    (hperm : constants.Perm constants') : WellFormed inputs constants' nodes outputs := by
  have hnames (others : List String) :
      (inputs ++ constants ++ others).Perm (inputs ++ constants' ++ others) :=
    (hperm.append_left inputs).append_right others
  refine ⟨(hnames _).nodup_iff.mp h.distinct, ?_, h.someOutput, ?_⟩
  · intro before node after hsplit name hname
    exact (hnames _).mem_iff.mp (h.earlier before node after hsplit name hname)
  · intro name hname
    exact (hnames _).mem_iff.mp (h.known name hname)

/-- A model of these inputs and of what a plan adds, with any numbers in its constants. -/
structure HasParts (m : Model) (inputs : List InputDecl) (added : Addition) : Prop where
  inputs : m.inputs = inputs
  constants : m.constants.map (·.shape) = Table.ofList added.parameters
  nodes : m.nodes = added.nodes
  outputs : m.outputs = added.outputs

/-- Shapes that flow through what a plan adds are those of every run of the model. -/
theorem HasParts.run_of_flow {m : Model} {inputs : List InputDecl} {added : Addition}
    {final : List (String × Shape)} {outShapes : List Shape} (h : m.HasParts inputs added)
    (hdistinct : (added.parameters.map (·.1)).Nodup)
    (hflow : Flow (declaredShapes inputs ++ added.parameters) added.nodes final)
    (houtputs : List.Forall₂ (fun name shape => (name, shape) ∈ final) added.outputs outShapes)
    (p : Precision) {xs : List (Tensor Float)} (hxs : xs.map (·.shape) = inputs.map (·.shape)) :
    ∃ results, m.run p xs = .ok results ∧ results.map (·.shape) = outShapes := by
  have hregisters : m.Registers added.parameters := by
    intro pair hpair
    have hfound := Table.find?_ofList hdistinct hpair
    rw [← h.constants, Table.find?_map] at hfound
    exact Option.map_eq_some_iff.mp hfound
  rw [← h.inputs, ← h.nodes] at hflow
  rw [← h.outputs] at houtputs
  rw [← h.inputs] at hxs
  exact Model.run_of_flow hregisters hflow houtputs hxs

end Model

namespace Assembly

/-- The model that a plan makes over these inputs. -/
def build (name : String) (inputs : List InputDecl) (plan : Assembly Unit) (g : Generator) :
    Except GraphError Model := do
  let (planned, draft, _) := plan.run.run ({ name, inputs }, g)
  planned
  draft.finish

/-- A plan that always succeeds makes a model if what it adds goes together. -/
theorem Adds.exists_build {inputs : List InputDecl} {plan : Assembly Unit} {added : Addition}
    (h : plan.Adds () added) (name : String)
    (hparts : Model.WellFormed (inputs.map (·.name)) (added.parameters.map (·.1)) added.nodes
      added.outputs) (g : Generator) :
    ∃ m, build name inputs plan g = .ok m ∧ m.HasParts inputs added := by
  obtain ⟨constants, hshapes, hrun⟩ := h { name, inputs } g
  have hnames : constants.map (·.1) = added.parameters.map (·.1) := by
    rw [← hshapes, List.map_map]
    rfl
  have hdistinct : (constants.map (·.1)).Nodup := by
    rw [hnames]
    exact (List.nodup_append.mp (List.nodup_append.mp hparts.distinct).1).2.1
  have hkeys := Table.keys_ofList_perm hdistinct
  rw [hnames] at hkeys
  obtain ⟨m, hm⟩ : ∃ m, Model.ofParts name inputs (.ofList constants) added.nodes added.outputs =
      .ok m := Model.exists_ofParts_iff.mpr (hparts.perm hkeys.symm)
  obtain ⟨-, hinputs, hconstants, hnodes, houtputs⟩ := Model.ofParts_eq_ok hm
  refine ⟨m, ?_, hinputs, ?_, hnodes, houtputs⟩
  · rw [build, hrun]
    exact (Draft.finish_eq_ofParts hdistinct).trans hm
  · rw [hconstants, Table.map_ofList, ← hshapes]
    rfl

end Assembly

namespace Assembly

variable {α : Type} {make : Assembly α} {forward : α → Assembly String} {inputs : List InputDecl}
  {parameters : List (String × Shape)} {shape : Shape}

end Assembly

theorem ne_append_suffix (name : String) {suffix : String} (h : suffix ≠ "") :
    name ≠ name ++ suffix := by
  intro heq
  have hempty : name ++ "" = name ++ suffix := by rwa [String.append_empty]
  exact h ((String.append_right_inj name).mp hempty).symm

namespace BatchNormLayer

open Assembly

variable {name input : String} {inputs : List InputDecl} {features : Nat} {eps : Float}
  {affine : Bool} {shape : Shape} {shapes : List (String × Shape)}

theorem nodup_names : (name :: (parameters name features affine).map (·.1)).Nodup := by
  cases affine <;> simp [parameters, ne_append_suffix]

/-- Statistics and affine parameters have an entry for each channel of the input. -/
theorem yields (h : Accepts features eps) (hinput : (input, shape) ∈ shapes)
    (hrank : 2 ≤ shape.length) (hchannels : shape[1]? = some features)
    (hparameters : parameters name features affine ⊆ shapes) :
    ((made name features eps affine).node input).op.Yields shapes shape := by
  obtain ⟨batch, rest, rfl⟩ : ∃ batch rest, shape = batch :: features :: rest := by
    match shape, hrank, hchannels with
    | batch :: _ :: rest, _, rfl => exact ⟨batch, rest, rfl⟩
  refine Op.yields_batchNorm h.finite h.nonneg hinput (hparameters ?_) (hparameters ?_)
    (fun _ _ => hparameters ?_) (fun _ _ => hparameters ?_)
  · simp [parameters, made]
  · simp [parameters, made]
  · cases affine <;> simp_all [parameters, made]
  · cases affine <;> simp_all [parameters, made]

end BatchNormLayer

/-- Number of places at which a window stands along an axis. -/
def AxisParams.places (p : AxisParams) (input kernel : Nat) : Nat :=
  (input + 2 * p.padding - p.effective kernel) / p.stride + 1

namespace ConvLayer

open Assembly

variable {name input : String} {inputs : List InputDecl} {sizes : ConvSizes} {params : ConvParams}
  {useBias : Bool} {batch height width : Nat}

/-- What a convolution asks of strides and dilations, and of the extents of its input: planes that
have pixels, and a kernel no larger than they are with their padding. -/
structure Covers (sizes : ConvSizes) (params : ConvParams) (height width : Nat) : Prop where
  strides : 0 < params.vertical.stride ∧ 0 < params.horizontal.stride
  dilations : 0 < params.vertical.dilation ∧ 0 < params.horizontal.dilation
  extents : 0 < height ∧ 0 < width
  vertical : params.vertical.effective sizes.kernelHeight ≤ height + 2 * params.vertical.padding
  horizontal : params.horizontal.effective sizes.kernelWidth ≤ width + 2 * params.horizontal.padding

instance : Decidable (Covers sizes params height width) :=
  decidable_of_iff
    ((0 < params.vertical.stride ∧ 0 < params.horizontal.stride) ∧
      (0 < params.vertical.dilation ∧ 0 < params.horizontal.dilation) ∧
      (0 < height ∧ 0 < width) ∧
      params.vertical.effective sizes.kernelHeight ≤ height + 2 * params.vertical.padding ∧
      params.horizontal.effective sizes.kernelWidth ≤ width + 2 * params.horizontal.padding)
    ⟨fun ⟨hstrides, hdilations, hextents, hvertical, hhorizontal⟩ =>
        ⟨hstrides, hdilations, hextents, hvertical, hhorizontal⟩,
      fun h => ⟨h.strides, h.dilations, h.extents, h.vertical, h.horizontal⟩⟩

/-- The window of a layer over an input of these extents. -/
def window (sizes : ConvSizes) (params : ConvParams) (batch height width : Nat) : Window where
  batch
  inChannels := sizes.inChannels
  inHeight := height
  inWidth := width
  outChannels := sizes.outChannels
  inPerGroup := sizes.inChannels / params.groups
  outPerGroup := sizes.outChannels / params.groups
  kernelHeight := sizes.kernelHeight
  kernelWidth := sizes.kernelWidth
  outHeight := params.vertical.places height sizes.kernelHeight
  outWidth := params.horizontal.places width sizes.kernelWidth

theorem positions?_eq_places {p : AxisParams} {extent kernel : Nat} (hkernel : 0 < kernel)
    (hfits : p.effective kernel ≤ extent + 2 * p.padding) :
    p.positions? extent kernel = some (p.places extent kernel) := by
  rw [AxisParams.positions?, if_neg (by omega)]
  rfl

/-- A layer's divisions by its groups are those that the kernel checks. -/
theorem window_coherent (h : Accepts sizes params) (hcovers : Covers sizes params height width) :
    (window sizes params batch height width).Coherent params where
  positive := by
    have hgroups := h.groups
    have hstrides := hcovers.strides
    have hdilations := hcovers.dilations
    omega
  inChannels := Nat.div_mul_cancel h.divides.1
  outChannels := Nat.mod_eq_zero_of_dvd h.divides.2
  outPerGroup := rfl
  outHeight := positions?_eq_places h.kernel.1 hcovers.vertical
  outWidth := positions?_eq_places h.kernel.2 hcovers.horizontal

theorem nodup_names : (name :: (parameters name sizes params useBias).map (·.1)).Nodup := by
  cases useBias <;> simp [parameters, ne_append_suffix]

section Yields

variable {shapes : List (String × Shape)}
  (hparameters : parameters name sizes params useBias ⊆ shapes)

include hparameters

theorem weight_mem : ((made name params useBias).weight, weightShape sizes params) ∈ shapes :=
  hparameters List.mem_cons_self

theorem bias_mem :
    ∀ bias ∈ (made name params useBias).bias, (bias, [sizes.outChannels]) ∈ shapes := by
  intro bias hbias
  apply hparameters
  cases useBias <;> simp_all [parameters, made]

/-- The weight of each output channel has the input channels of its group. -/
theorem yields {count : Nat} (h : Accepts sizes params) (hcovers : Covers sizes params height width)
    (hcount : (window sizes params batch height width).outShape.numel? = some count)
    (hinput : (input, [batch, sizes.inChannels, height, width]) ∈ shapes) :
    ((made name params useBias).node input).op.Yields shapes
      (window sizes params batch height width).outShape :=
  Op.yields_conv2d (window_coherent h hcovers) hcount hinput (weight_mem hparameters)
    (bias_mem hparameters)

/-- An offset, and a mask if there is one, with planes for every tap of every offset group. -/
theorem yields_deformed {offset : String} {mask : Option String} {count : Nat} (groups : Nat)
    (h : Accepts sizes params) (hcovers : Covers sizes params height width)
    (hcount : (window sizes params batch height width).outShape.numel? = some count)
    (hinput : (input, [batch, sizes.inChannels, height, width]) ∈ shapes)
    (hsize : Shape.volume [batch, sizes.inChannels, height, width] < 2 ^ 53)
    (hgroups : 0 < groups) (hdivides : groups ∣ sizes.inChannels)
    (hoffset : (offset, (window sizes params batch height width).offsetShape groups) ∈ shapes)
    (hmask : ∀ name ∈ mask,
      (name, (window sizes params batch height width).maskShape groups) ∈ shapes) :
    ((made name params useBias).deformedNode input offset mask).op.Yields shapes
      (window sizes params batch height width).outShape :=
  Op.yields_deformConv2d (window_coherent h hcovers) hcount
    (Nat.mul_pos hcovers.extents.1 hcovers.extents.2) hsize hgroups hdivides hinput hoffset hmask
    (weight_mem hparameters) (bias_mem hparameters)

end Yields

end ConvLayer

section Made

variable {d : Draft} {g : Generator} {after : Draft × Generator}

end Made

end TensorParity
