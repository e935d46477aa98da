import SlvmNative.Library.LinearProbing
import SlvmNative.Library.LinkedList
import SlvmNative.Library.Inheritance
import SlvmNative.Library.Words
import SlvmNative.Library.StructLayout
import SlvmNative.Library.ByteMemory
import SlvmNative.Library.Decimal
import SlvmNative.LinkedLists
import SlvmNative.ObjectModel
import SlvmNative.KernelClasses
import SlvmNative.StackHeap
import SlvmNative.ExecutionStack
import SlvmNative.HeapWalk
import SlvmNative.FlatMemory
import SlvmNative.CompactingHeap
import SlvmNative.HeapWalkEnds
import SlvmNative.ByteHeap
import SlvmNative.Reservation
import SlvmNative.ObjectMemory
import SlvmNative.Strings
import SlvmNative.HashedCollections
import SlvmNative.WeakSets
import SlvmNative.Dictionaries
import SlvmNative.MethodDictionaries
import SlvmNative.MethodDictionaryRuns
import SlvmNative.World
import SlvmNative.Symbols
import SlvmNative.Globals
import SlvmNative.GlobalsRuns
import SlvmNative.ClassTable
import SlvmNative.Behaviors
import SlvmNative.Registration
import SlvmNative.KernelInitialization
import SlvmNative.KernelRuns
import SlvmNative.ClassPools
import SlvmNative.DictionaryLayout
import SlvmNative.HeapRegistration
import SlvmNative.Trampolines
import SlvmNative.MessageReturns
import SlvmNative.MarriedContexts
import SlvmNative.SegmentMoves
import SlvmNative.StaticHeaps
import SlvmNative.StaticHeapNames
import SlvmNative.FixedHeaps
import SlvmNative.ClassVariables
import SlvmNative.PopulatedGlobals
import SlvmNative.StringComparison
import SlvmNative.StringSets
import SlvmNative.HeapPasses
import SlvmNative.SmallIntegers
import SlvmNative.PrimitiveAllocation
import SlvmNative.StackHeapRuns
import SlvmNative.DictionaryRuns
import SlvmNative.WeakSetRuns
import SlvmNative.RegisteredKeys
import SlvmNative.Primitives
import SlvmNative.ObjectLayout
import SlvmNative.MessageDispatch
import SlvmNative.SegmentHeaders
import SlvmNative.MessageRuns
import SlvmNative.KernelObjects
import SlvmNative.KernelSymbols
import SlvmNative.KernelSends
import SlvmNative.BlockClosures
import SlvmNative.SendsFromC
