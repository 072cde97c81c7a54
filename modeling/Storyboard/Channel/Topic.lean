import Storyboard.Text.Blank

/-! # Topics

    The topics that are offered, and what the backend is asked for when one is
    chosen. -/

namespace Storyboard

/-- The sections under which topics are listed. -/
inductive Shelf where
  | dataStructure
  | algorithm
  | pattern
  deriving DecidableEq, Repr, Inhabited

/-- A topic that is offered. -/
structure Topic where
  /-- Its name in the list. -/
  slug    : String
  title   : String
  shelf   : Shelf
  /-- What the backend is asked for. -/
  request : String
  deriving DecidableEq, Repr, Inhabited

namespace Topic

/-- All topics, in the order in which they are listed. -/
def all : List Topic := [
  ⟨"array-basics", "Array Basics", .dataStructure,
    "Show me fundamental array operations: creation, indexing, insertion, deletion, and " ++
    "traversal using array [1, 2, 3, 4, 5]. Include definition of arrays and when to use " ++
    "them."⟩,
  ⟨"linked-list", "Linked List", .dataStructure,
    "Visualize linked list insertion and reversal with nodes 1, 2, 3, 4"⟩,
  ⟨"stack-queue", "Stack & Queue", .dataStructure,
    "Show me stack push/pop and queue enqueue/dequeue operations"⟩,
  ⟨"binary-tree", "Binary Tree", .dataStructure,
    "Demonstrate binary tree traversal (inorder, preorder, postorder)"⟩,
  ⟨"bst", "Binary Search Tree", .dataStructure,
    "Show me binary search tree insertion for values 15, 10, 20, 8, 12"⟩,
  ⟨"graph", "Graph", .dataStructure,
    "Visualize a graph and show BFS traversal"⟩,
  ⟨"bubble-sort", "Bubble Sort", .algorithm,
    "Show me bubble sort step-by-step on array [5, 2, 8, 1, 9]"⟩,
  ⟨"merge-sort", "Merge Sort", .algorithm,
    "Visualize merge sort divide and conquer on [5, 2, 8, 1]"⟩,
  ⟨"quick-sort", "Quick Sort", .algorithm,
    "Show me quick sort with partitioning on [5, 2, 8, 1, 9]"⟩,
  ⟨"binary-search", "Binary Search", .algorithm,
    "Demonstrate binary search for value 7 in sorted array [1, 3, 5, 7, 9, 11]"⟩,
  ⟨"bfs", "Breadth-First Search", .algorithm,
    "Show me breadth-first search on a sample graph"⟩,
  ⟨"dfs", "Depth-First Search", .algorithm,
    "Visualize depth-first search on a sample graph"⟩,
  ⟨"two-pointers", "Two Pointers", .pattern,
    "Show me the two pointers pattern for finding pair sum in array [1, 2, 3, 4, 5, 6] " ++
    "with target 7"⟩,
  ⟨"sliding-window", "Sliding Window", .pattern,
    "Demonstrate sliding window pattern to find maximum sum subarray of size 3 in [2, 1, " ++
    "5, 1, 3, 2]"⟩,
  ⟨"fast-slow-pointers", "Fast & Slow Pointers", .pattern,
    "Visualize fast and slow pointers for cycle detection in a linked list"⟩,
  ⟨"merge-intervals", "Merge Intervals", .pattern,
    "Show me how to merge overlapping intervals: [[1,3], [2,6], [8,10], [15,18]]"⟩,
  ⟨"backtracking", "Backtracking", .pattern,
    "Demonstrate backtracking pattern with N-Queens problem for n=4"⟩,
  ⟨"dynamic-programming", "Dynamic Programming", .pattern,
    "Visualize dynamic programming with Fibonacci sequence using memoization"⟩]

/-- The topic with a name; capitals and blanks around it do not matter. -/
def find? (slug : String) : Option Topic :=
  all.find? fun t => Text.lower t.slug == Text.lower (Text.trim slug)

/-- What the backend is asked for a topic; one that is not offered goes by its title. -/
def requestFor (slug title : String) : String :=
  match find? slug with
  | some t => t.request
  | none => "Show me " ++ Text.trim title

end Topic

end Storyboard
