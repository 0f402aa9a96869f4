import DegreeTwo.Affine.VectorUpdate
import DegreeTwo.Expr
import DegreeTwo.Flag
import DegreeTwo.Proofs.Accumulation
import DegreeTwo.Proofs.BilinearByRows
import DegreeTwo.Proofs.BufferHistory
import DegreeTwo.Proofs.Canonicality
import DegreeTwo.Proofs.Constructions
import DegreeTwo.Proofs.Conversion.Updates
import DegreeTwo.Proofs.DirectProducts
import DegreeTwo.Proofs.DroppedZeros
import DegreeTwo.Proofs.Embedding
import DegreeTwo.Proofs.Evaluation
import DegreeTwo.Proofs.ExactMerging
import DegreeTwo.Proofs.ExpandedProduct
import DegreeTwo.Proofs.LinearAlgebra
import DegreeTwo.Proofs.MergingAnytime
import DegreeTwo.Proofs.Multiples
import DegreeTwo.Proofs.NormalForm
import DegreeTwo.Proofs.Opposites
import DegreeTwo.Proofs.Overwriting
import DegreeTwo.Proofs.RingLaws
import DegreeTwo.Proofs.RowTiling
import DegreeTwo.Proofs.ShapeErrors
import DegreeTwo.Proofs.Sorting.GroupByKey
import DegreeTwo.Proofs.Sorting.Reference
import DegreeTwo.Proofs.Value.Expr
import DegreeTwo.Proofs.Value.Updates
import DegreeTwo.Proofs.Widening.Updates
import DegreeTwo.Quadratic.Update
import DegreeTwo.Proofs.Pruning
import DegreeTwo.Proofs.LikeTerms
import DegreeTwo.Proofs.Reading
import DegreeTwo.Proofs.Sorting.MergedRange
