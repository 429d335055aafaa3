import TensorParity.Kernel.Conv2d
import TensorParity.Kernel.DeformConv2d
import TensorParity.Kernel.Pointwise
import TensorParity.Proofs.Except

/-!
Kernels look at shapes before they look at numbers. What a kernel refuses, and the shape of what it
yields, follow from the shapes of its operands; the numbers decide only where a deformable
convolution samples, and so whether it leaves a buffer.
-/
namespace TensorParity

variable {α β γ : Type}

/-- Two folds that stay related stop together. -/
theorem foldRange?_rel {r : β → γ → Prop} {f : Nat → β → Option β} {g : Nat → γ → Option γ}
    {start count : Nat} (hstep : ∀ i, start ≤ i → i < start + count → ∀ b c, r b c →
      Option.Rel r (f i b) (g i c)) {b : β} {c : γ} (h : r b c) :
    Option.Rel r (foldRange? f start count b) (foldRange? g start count c) := by
  induction count generalizing start b c with
  | zero => exact .some h
  | succ count ih =>
    have hfirst := hstep start le_rfl (by omega) b c h
    rw [foldRange?, foldRange?]
    generalize f start b = x at hfirst ⊢
    generalize g start c = y at hfirst ⊢
    cases hfirst with
    | none => exact .none
    | some hnext => exact ih (fun i hi hlast => hstep i (by omega) (by omega)) hnext

/-- What each step keeps, counting the steps, holds at the end of a fold. -/
theorem foldRange?_invariant (inv : Nat → β → Prop) {f : Nat → β → Option β}
    (hstep : ∀ i b b', inv i b → f i b = some b' → inv (i + 1) b') {start count : Nat} {b b' : β}
    (h : inv start b) (hfold : foldRange? f start count b = some b') : inv (start + count) b' := by
  induction count generalizing start b with
  | zero =>
    obtain rfl := Option.some.inj hfold
    exact h
  | succ count ih =>
    rw [foldRange?] at hfold
    split at hfold
    · rename_i next hnext
      have hrest := ih (hstep start b next h hnext) hfold
      rwa [Nat.add_right_comm] at hrest
    · simp at hfold

/-- Whether there are results on both sides or on neither. -/
abbrev BothOrNeither (x : Option β) (y : Option γ) : Prop := Option.Rel (fun _ _ => True) x y

theorem bothOrNeither_getElem {a b : Array α} (h : a.size = b.size) (i : Nat) :
    BothOrNeither a[i]? b[i]? := by
  by_cases hi : i < a.size
  · rw [Array.getElem?_eq_getElem hi, Array.getElem?_eq_getElem (h ▸ hi)]
    exact .some trivial
  · rw [Array.getElem?_eq_none (by omega), Array.getElem?_eq_none (by omega)]
    exact .none

/-- Tables of the same functions, as far as their existence goes, are of one size. -/
theorem tabulate?_rel {f g : Nat → Option α} (h : ∀ i, BothOrNeither (f i) (g i)) (count : Nat) :
    Option.Rel (fun a b : Array α => a.size = b.size) (tabulate? f count) (tabulate? g count) := by
  refine foldRange?_rel (fun i _ _ a b hsize => ?_) rfl
  have hi := h i
  generalize f i = x at hi ⊢
  generalize g i = y at hi ⊢
  cases hi with
  | none => exact .none
  | some _ => exact .some (by simp [hsize])

theorem Tensor.size_eq_of_shape {t : Tensor β} {u : Tensor γ} (h : t.shape = u.shape) :
    t.data.size = u.data.size := by
  have hcount := t.numel_eq
  rw [h, u.numel_eq] at hcount
  exact (Option.some.inj hcount).symm

theorem bothOrNeither_iff {x : Option β} {y : Option γ} :
    BothOrNeither x y ↔ x.isSome = y.isSome := by
  cases x <;> cases y <;> simp [BothOrNeither]

theorem bothOrNeither_entry {v w : Option (Tensor α)} (h : v.map (·.shape) = w.map (·.shape))
    (absent : α) (i : Nat) : BothOrNeither ( entry? v absent i) ( entry? w absent i) := by
  obtain _ | v := v <;> obtain _ | w := w
  · exact .some trivial
  · simp at h
  · simp at h
  · exact bothOrNeither_getElem (Tensor.size_eq_of_shape (Option.some.inj h)) i

section Conv

variable [Scalar α] {w : Window} {params : ConvParams} {input input' weight weight' : Array α}
  {bias bias' : Option (Tensor α)}

theorem conv2dAt_rel (hinput : input.size = input'.size) (hweight : weight.size = weight'.size)
    (hbias : bias.map (·.shape) = bias'.map (·.shape)) (sample outChannel row column : Nat) :
    BothOrNeither (conv2dAt w params input weight bias sample outChannel row column)
      (conv2dAt w params input' weight' bias' sample outChannel row column) := by
  have hstart := bothOrNeither_entry hbias (Scalar.ofNat 0) outChannel
  unfold conv2dAt
  generalize entry? bias (Scalar.ofNat 0) outChannel = x at hstart ⊢
  generalize entry? bias' (Scalar.ofNat 0) outChannel = y at hstart ⊢
  cases hstart with
  | none => exact .none
  | some _ =>
    refine foldRange?_rel (fun channel _ _ _ _ _ => ?_) trivial
    refine foldRange?_rel (fun tapRow _ _ _ _ _ => ?_) trivial
    cases params.vertical.tap? w.inHeight row tapRow with
    | none => exact .some trivial
    | some y =>
      refine foldRange?_rel (fun tapColumn _ _ acc acc' _ => ?_) trivial
      cases params.horizontal.tap? w.inWidth column tapColumn with
      | none => exact .some trivial
      | some x =>
        refine bothOrNeither_iff.mpr ?_
        grind

theorem conv2dElements_rel (hinput : input.size = input'.size)
    (hweight : weight.size = weight'.size)
    (hbias : bias.map (·.shape) = bias'.map (·.shape)) :
    Option.Rel (fun a b : Array α => a.size = b.size) (conv2dElements w params input weight bias)
      (conv2dElements w params input' weight' bias') :=
  tabulate?_rel (fun _ => conv2dAt_rel hinput hweight hbias _ _ _ _) _

end Conv

/-- The shape of a result, or the refusal. -/
abbrev resultShape (result : Except KernelError (Tensor α)) : Except KernelError Shape :=
  result.map (·.shape)

/-- Results that agree after a common check agree. -/
theorem resultShape_bind {check : Except KernelError β} {f g : β → Except KernelError (Tensor α)}
    (h : ∀ b, resultShape (f b) = resultShape (g b)) :
    resultShape (check >>= f) = resultShape (check >>= g) := by
  cases check with
  | error e => rfl
  | ok b => exact h b

theorem ofArray_congr {shape : Shape} {a b : Array α} (hsize : a.size = b.size) :
    ((Tensor.ofArray shape a).mapError KernelError.tensor).map (·.shape) =
      ((Tensor.ofArray shape b).mapError KernelError.tensor).map (·.shape) := by
  unfold Tensor.ofArray
  split
  · rfl
  · rename_i count hcount
    by_cases hfits : count = a.size
    · rw [dif_pos hfits, dif_pos (hfits.trans hsize)]
      rfl
    · rw [dif_neg hfits, dif_neg (hsize ▸ hfits), hsize]

theorem resultShape_ofKernel {x y : Option (Array α)}
    (h : Option.Rel (fun a b : Array α => a.size = b.size) x y) (kernel : OperatorKind)
    (shape : Shape) :
    resultShape (Tensor.ofKernel kernel shape x) =
      resultShape (Tensor.ofKernel kernel shape y) := by
  cases h with
  | none => rfl
  | some hsize => exact ofArray_congr hsize

theorem checkChannelVector?_congr {v w : Option (Tensor α)}
    (h : v.map (·.shape) = w.map (·.shape)) (kernel : OperatorKind) (operand : Operand)
    (channels : Nat) :
    Tensor.checkChannelVector? kernel operand v channels =
      Tensor.checkChannelVector? kernel operand w channels := by
  obtain _ | v := v <;> obtain _ | w := w
  · rfl
  · simp at h
  · simp at h
  · simp only [Tensor.checkChannelVector?, Tensor.checkChannelVector, Option.some.inj h]

theorem Window.resolve_congr {input input' weight weight' : Tensor α}
    {bias bias' : Option (Tensor α)}
    (hinput : input.shape = input'.shape) (hweight : weight.shape = weight'.shape)
    (hbias : bias.map (·.shape) = bias'.map (·.shape)) (kernel : OperatorKind)
    (params : ConvParams) :
    resolve kernel input weight bias params = resolve kernel input' weight' bias' params := by
  simp only [resolve, hinput, hweight, checkChannelVector?_congr hbias]

theorem offsetGroups_congr {w : Window} {offset offset' : Tensor α} {mask mask' : Option (Tensor α)}
    (hoffset : offset.shape = offset'.shape) (hmask : mask.map (·.shape) = mask'.map (·.shape)) :
    w.offsetGroups offset mask = w.offsetGroups offset' mask' := by
  unfold Window.offsetGroups
  rw [hoffset]
  obtain _ | mask := mask <;> obtain _ | mask' := mask'
  · rfl
  · simp at hmask
  · simp at hmask
  · simp only [Option.some.inj hmask]

section Conv

variable [Scalar α] {params : ConvParams} {input input' weight weight' : Tensor α}
  {bias bias' : Option (Tensor α)}

/-- A convolution depends on numbers in the elements of its result alone. -/
theorem resultShape_conv2d (hinput : input.shape = input'.shape)
    (hweight : weight.shape = weight'.shape) (hbias : bias.map (·.shape) = bias'.map (·.shape)) :
    resultShape (conv2d input weight bias params) =
      resultShape (conv2d input' weight' bias' params) := by
  unfold conv2d
  rw [Window.resolve_congr hinput hweight hbias]
  refine resultShape_bind fun w => resultShape_ofKernel ?_ _ _
  exact conv2dElements_rel (Tensor.size_eq_of_shape hinput) (Tensor.size_eq_of_shape hweight) hbias

/-- All elements of a deformable convolution, if there are any, are as many as there are positions.
-/
theorem size_deformConv2dElements {w : Window} {input weight : Array α} {bias : Option (Tensor α)}
    {d : Deformation α} {elements : Array α}
    (h : deformConv2dElements w params input weight bias d = some elements) :
    elements.size = w.batch * (w.outChannels * w.spatial) := by
  have h := foldRange?_invariant (fun sample (acc : Array α) =>
    acc.size = sample * (w.outChannels * w.spatial)) (fun sample acc acc' hacc hstep => by
      split at hstep
      · simp at hstep
      · have hpushed := foldRange?_invariant (fun flat (acc : Array α) =>
          acc.size = sample * (w.outChannels * w.spatial) + flat)
          (fun flat acc acc' hflat hpush => by
            split at hpush
            · obtain rfl := Option.some.inj hpush
              rw [Array.size_push, hflat, Nat.add_assoc]
            · simp at hpush) hacc hstep
        rw [hpushed, Nat.zero_add, Nat.succ_mul]) (by simp) h
  rwa [Nat.zero_add] at h

variable {offset offset' : Tensor α} {mask mask' : Option (Tensor α)}

/-- A deformable convolution depends on numbers in the elements of its result, and in whether one
of them was asked for outside its buffer. -/
theorem resultShape_deformConv2d (hinput : input.shape = input'.shape)
    (hoffset : offset.shape = offset'.shape) (hmask : mask.map (·.shape) = mask'.map (·.shape))
    (hweight : weight.shape = weight'.shape) (hbias : bias.map (·.shape) = bias'.map (·.shape)) :
    resultShape (deformConv2d input offset mask weight bias params) =
        resultShape (deformConv2d input' offset' mask' weight' bias' params) ∨
      deformConv2d input offset mask weight bias params = .error (.outsideBuffer .deformConv2d) ∨
      deformConv2d input' offset' mask' weight' bias' params =
        .error (.outsideBuffer .deformConv2d) := by
  unfold deformConv2d
  rw [Window.resolve_congr hinput hweight hbias]
  cases Window.resolve .deformConv2d input' weight' bias' params with
  | error e => exact .inl rfl
  | ok w =>
    simp only [ok_bind, offsetGroups_congr hoffset hmask]
    cases w.offsetGroups offset' mask' with
    | error e => exact .inl rfl
    | ok groups =>
      simp only [ok_bind]
      generalize hleft : deformConv2dElements w params input.data weight.data bias
        ⟨offset.data, mask.map (·.data), groups⟩ = left
      generalize hright : deformConv2dElements w params input'.data weight'.data bias'
        ⟨offset'.data, mask'.map (·.data), groups⟩ = right
      obtain _ | left := left
      · exact .inr (.inl rfl)
      obtain _ | right := right
      · exact .inr (.inr rfl)
      refine .inl (resultShape_ofKernel (.some ?_) _ _)
      rw [size_deformConv2dElements hleft, size_deformConv2dElements hright]

end Conv

theorem batchNormElements_rel {channels inner : Nat}
    {input input' mean mean' var var' : Array Float}
    {weight weight' bias bias' : Option (Tensor Float)} {eps : Float}
    (hinput : input.size = input'.size) (hmean : mean.size = mean'.size)
    (hvar : var.size = var'.size) (hweight : weight.map (·.shape) = weight'.map (·.shape))
    (hbias : bias.map (·.shape) = bias'.map (·.shape)) :
    Option.Rel (fun a b : Array Float => a.size = b.size)
      (batchNormElements channels inner input mean var weight bias eps)
      (batchNormElements channels inner input' mean' var' weight' bias' eps) := by
  unfold batchNormElements
  generalize hleft : tabulate? _ channels = scale
  generalize hright : tabulate? _ channels = scale'
  have hscale : Option.Rel (fun a b : Array Float => a.size = b.size) scale scale' := by
    rw [← hleft, ← hright]
    refine tabulate?_rel (fun c => ?_) channels
    have hgamma := bothOrNeither_iff.mp (bothOrNeither_entry hweight 1.0 c)
    refine bothOrNeither_iff.mpr ?_
    grind [Option.isSome_iff_exists]
  clear hleft hright
  cases hscale with
  | none => exact .none
  | some hsize =>
    rw [hinput]
    refine tabulate?_rel (fun flat => ?_) _
    have hbeta := bothOrNeither_iff.mp (bothOrNeither_entry hbias 0.0 (flat / inner % channels))
    refine bothOrNeither_iff.mpr ?_
    grind [Option.isSome_iff_exists]

/-- A normalisation depends on numbers in the elements of its result alone. -/
theorem resultShape_batchNorm {input input' mean mean' var var' : Tensor Float}
    {weight weight' bias bias' : Option (Tensor Float)} {eps : Float}
    (hinput : input.shape = input'.shape) (hmean : mean.shape = mean'.shape)
    (hvar : var.shape = var'.shape) (hweight : weight.map (·.shape) = weight'.map (·.shape))
    (hbias : bias.map (·.shape) = bias'.map (·.shape)) :
    resultShape (batchNorm input mean var weight bias eps) =
      resultShape (batchNorm input' mean' var' weight' bias' eps) := by
  unfold batchNorm
  simp only [hinput, Tensor.checkChannelVector, hmean, hvar, checkChannelVector?_congr hweight,
    checkChannelVector?_congr hbias]
  split
  · rename_i channels rest _
    split
    · rfl
    refine resultShape_bind fun _ => resultShape_bind fun _ => resultShape_bind fun _ =>
      resultShape_bind fun _ => ?_
    exact resultShape_ofKernel (batchNormElements_rel (Tensor.size_eq_of_shape hinput)
      (Tensor.size_eq_of_shape hmean) (Tensor.size_eq_of_shape hvar) hweight hbias) _ _
  · rfl

end TensorParity
